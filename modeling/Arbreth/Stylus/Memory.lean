/-
  The price of memory pages of Stylus programs (arbos, programs/memory.rs; arb-stylus, env.rs:
  add_pages_charge, host.rs: pay_for_memory_grow; arb-evm, evm.rs: stylus_call_gas_cost,
  execute_stylus_program, the trampolines and run_evm_bytecode).

  Two counters are kept, of the pages open now and of the most pages ever open. They live in
  three places. A program counts in its own environment. A call hands the environment's counters
  to the trampoline, which puts them into the scratch state of the transaction, where the callee
  finds them and leaves them. A transaction is modelled as the tree of its calls and memory
  grows; running it gives the allocations with their charges, the counters before and after each
  call, and the counters left.
-/
import Arbreth.Lib.Machine
import Mathlib.Algebra.BigOperators.Group.List.Basic

namespace Arbreth.Stylus

open Arbreth.Lib

/-! ## The price -/

/-- `MEMORY_EXPONENTS`. -/
def memoryExponents : List Nat :=
  [1, 1, 1, 1, 1, 1, 2, 2, 2, 3, 3, 4, 5, 5, 6, 7, 8, 9, 11, 12, 14, 17, 19, 22, 25, 29, 33, 38,
    43, 50, 57, 65, 75, 85, 98, 112, 128, 147, 168, 193, 221, 253, 289, 331, 379, 434, 497, 569,
    651, 745, 853, 976, 1117, 1279, 1463, 1675, 1917, 2194, 2511, 2874, 3290, 3765, 4309, 4932,
    5645, 6461, 7395, 8464, 9687, 11087, 12689, 14523, 16621, 19024, 21773, 24919, 28521, 32642,
    37359, 42758, 48938, 56010, 64104, 73368, 83971, 96106, 109994, 125890, 144082, 164904, 188735,
    216010, 247226, 282953, 323844, 370643, 424206, 485509, 555672, 635973, 727880, 833067, 953456,
    1091243, 1248941, 1429429, 1636000, 1872423, 2143012, 2452704, 2807151, 3212820, 3677113,
    4208502, 4816684, 5512756, 6309419, 7221210, 8264766, 9459129, 10826093, 12390601, 14181199,
    16230562, 18576084, 21260563, 24332984, 27849408, 31873999]

/-- `MemoryModel::exp`. -/
def memoryExp (pages : Nat) : Nat :=
  if pages < memoryExponents.length then memoryExponents.getD pages 0 else u64Max

/-- `u16::saturating_add`. -/
def satAdd16 (a b : Nat) : Nat := min (a + b) (2 ^ 16 - 1)

/-- What the price depends on: the two numbers of `MemoryModel`, the cap on open pages and the
    version of ArbOS. -/
structure MemoryModel where
  freePages : UInt16
  pageGas : UInt16
  pageLimit : UInt16
  arbosVersion : Nat

open MemoryModel

/-- `MemoryModel::gas_cost`. -/
def MemoryModel.gasCost (m : MemoryModel) (newPages opened ever : Nat) : Nat :=
  let newOpen := satAdd16 opened newPages
  let newEver := max ever newOpen
  if newEver ≤ m.freePages.toNat then 0
  else
    let adding := (newOpen - m.freePages.toNat) - (opened - m.freePages.toNat)
    let linear := satMul64 adding m.pageGas.toNat
    let expand := memoryExp newEver - memoryExp ever
    satAdd64 linear expand

/-- `page_limit_exceeded`. -/
def MemoryModel.pageLimitExceeded (m : MemoryModel) (newOpen : Nat) : Bool :=
  59 ≤ m.arbosVersion && 0 < m.pageLimit.toNat && m.pageLimit.toNat < newOpen

/-! ## The counters -/

/-- The counters `pages_open` and `pages_ever`. -/
structure Pages where
  opened : Nat
  ever : Nat
  deriving DecidableEq

/-- An allocation: the counters before it, the pages added and what is charged for them. -/
structure Allocation where
  before : Pages
  pages : Nat
  charge : Nat
  deriving DecidableEq

/-- The pages open after it. -/
def Allocation.openAfter (a : Allocation) : Nat := satAdd16 a.before.opened a.pages

/-- The counters after some pages more. -/
def Pages.add (p : Pages) (pages : Nat) : Pages :=
  ⟨satAdd16 p.opened pages, max p.ever (satAdd16 p.opened pages)⟩

/-- The charge for some pages more: in `add_pages_charge`, and the part of
    `stylus_call_gas_cost` that is for memory. -/
def MemoryModel.charge (m : MemoryModel) (p : Pages) (pages : Nat) : Nat :=
  if m.pageLimitExceeded (satAdd16 p.opened pages) then u64Max
  else m.gasCost pages p.opened p.ever

/-- What a run of some code leaves: its allocations in order, the counters before and after each
    call that returned, and the counters it ends with. -/
structure PageRun where
  allocations : List Allocation
  returns : List (Pages × Pages)
  pages : Pages
  deriving DecidableEq

/-- `pay_for_memory_grow_overflows`: an operand of more than sixteen bits first has to pay all the
    gas there can be. -/
def MemoryModel.overflowCharge (m : MemoryModel) (operand : Nat) : Nat :=
  if 2 ^ 16 - 1 < operand ∧ 59 ≤ m.arbosVersion then u64Max else 0

/-- `pay_for_memory_grow`. -/
def MemoryModel.payForMemoryGrow (m : MemoryModel) (operand : Nat) (env : Pages) : PageRun :=
  let pages := operand % 2 ^ 16
  if pages = 0 then ⟨[⟨env, 0, m.overflowCharge operand⟩], [], env⟩
  else ⟨[⟨env, pages, m.overflowCharge operand + m.charge env pages⟩], [], env.add pages⟩

/-! ## Calls -/

/-- Whose code runs in a frame. -/
inductive PageRunner where
  | program
  | evm

mutual

/-- A call, by what it does to the counters: it may end before it allocates anything, a program
    may not start, or start and run, and EVM code can only call in turn. -/
inductive PageCall where
  | refused
  | unstarted (footprint : UInt16)
  | program (footprint : UInt16) (body : Body .program)
  | evm (body : Body .evm)

/-- What the code of a frame does, in order. Only a program grows memory. -/
inductive Body : PageRunner → Type where
  | done {r : PageRunner} : Body r
  | grow (operand : Nat) (rest : Body .program) : Body .program
  | call {r : PageRunner} (callee : PageCall) (rest : Body r) : Body r

end

/-- `execute_stylus_program` for a program that starts: the scratch state holds the counters of
    the caller; the program runs in an environment that begins with its footprint added. -/
def MemoryModel.executeProgram (m : MemoryModel) (footprint : Nat) (run : Pages → PageRun)
    (scratch : Pages) : PageRun :=
  let start := scratch.add footprint
  let r := run start
  { allocations := ⟨scratch, footprint, m.charge scratch footprint⟩ :: r.allocations
    returns := r.returns
    pages := ⟨scratch.opened, max r.pages.ever start.ever⟩ }

/-- A call from a frame with these counters. They go through the trampoline into the scratch
    state, and from there back to the caller. -/
def PageRun.returned (r : PageRun) (parent : Pages) : PageRun :=
  { r with returns := r.returns ++ [(parent, r.pages)] }

/-- One run after another. -/
def PageRun.before (r next : PageRun) : PageRun :=
  ⟨r.allocations ++ next.allocations, r.returns ++ next.returns, next.pages⟩

mutual

def PageCall.run (m : MemoryModel) : PageCall → Pages → PageRun
  | .refused, scratch => ⟨[], [], scratch⟩
  | .unstarted footprint, scratch =>
    m.executeProgram footprint.toNat (fun start => ⟨[], [], start⟩) scratch
  | .program footprint body, scratch =>
    m.executeProgram footprint.toNat (body.run m) scratch
  | .evm body, scratch => body.run m scratch

def Body.run (m : MemoryModel) : {r : PageRunner} → Body r → Pages → PageRun
  | _, .done, p => ⟨[], [], p⟩
  | _, .grow operand rest, p =>
    let r := m.payForMemoryGrow operand p
    r.before (rest.run m r.pages)
  | _, .call callee rest, p =>
    let r := (callee.run m p).returned p
    r.before (rest.run m r.pages)

end

/-- Memory grown by one operand after the other. -/
def growAll : List Nat → Body .program
  | [] => .done
  | operand :: operands => .grow operand (growAll operands)

/-! ## What the price should be -/

/-- The pages an allocation adds beyond the free ones. -/
def MemoryModel.addedPages (m : MemoryModel) (a : Allocation) : Nat :=
  max a.openAfter m.freePages.toNat - max a.before.opened m.freePages.toNat

/-- The total of the charges. -/
def PageRun.total (r : PageRun) : Nat := (r.allocations.map Allocation.charge).sum

/-- From this count of pages ever open on, every allocation finds the count at the largest number
    of pages open so far, and so does the end. -/
def EverFollows : Nat → List Allocation → Nat → Prop
  | ever, [], final => final = ever
  | ever, a :: as, final => a.before.ever = ever ∧ EverFollows (max ever a.openAfter) as final

/-! ## The table -/

theorem memoryExp_flat {i : Nat} (h : i ≤ 5) : memoryExp i = 1 := by
  have hall : ∀ j < 6, memoryExp j = 1 := by decide +kernel
  exact hall i (by omega)

theorem memoryExp_step : ∀ i < 128, memoryExp i ≤ memoryExp (i + 1) := by decide +kernel

theorem memoryExp_mono {i j : Nat} (hij : i ≤ j) (hj : j ≤ 128) : memoryExp i ≤ memoryExp j := by
  induction j, hij using Nat.le_induction with
  | base => exact Nat.le_refl _
  | succ j hij ih => exact Nat.le_trans (ih (by omega)) (memoryExp_step j (by omega))

theorem memoryExp_le {i : Nat} (h : i ≤ 128) : memoryExp i ≤ 31873999 := by
  have hlast : memoryExp 128 = 31873999 := by decide +kernel
  exact hlast ▸ memoryExp_mono h (Nat.le_refl _)

/-! ## One allocation -/

section Price

variable {m : MemoryModel} (hfree : m.freePages.toNat ≤ 5)

include hfree

/-- The price of an allocation, in the form in which it adds up. The case of the source in which
    nothing is charged is no exception, since the table is flat up to the free pages. -/
theorem gasCost_eq (pages : Nat) {opened ever : Nat} (hopened : opened ≤ ever) (hever : ever ≤ 128)
    (hafter : satAdd16 opened pages ≤ 128) :
    m.gasCost pages opened ever + memoryExp ever =
      m.pageGas.toNat * (max (satAdd16 opened pages) m.freePages.toNat -
          max opened m.freePages.toNat) +
        memoryExp (max ever (satAdd16 opened pages)) := by
  generalize hnew : satAdd16 opened pages = newOpen at *
  have hgas : m.pageGas.toNat < 2 ^ 16 := m.pageGas.toNat_lt
  have hexp := memoryExp_mono (Nat.le_max_left ever newOpen) (by omega)
  have hle := memoryExp_le (show max ever newOpen ≤ 128 by omega)
  have hadding : newOpen - m.freePages.toNat - (opened - m.freePages.toNat) =
      max newOpen m.freePages.toNat - max opened m.freePages.toNat := by omega
  unfold gasCost
  rw [hnew]
  dsimp only
  split
  · next hsmall =>
      have hzero : max newOpen m.freePages.toNat - max opened m.freePages.toNat = 0 := by omega
      rw [hzero, memoryExp_flat (show ever ≤ 5 by omega),
        memoryExp_flat (show max ever newOpen ≤ 5 by omega)]
      omega
  · rw [hadding]
    generalize hadd : max newOpen m.freePages.toNat - max opened m.freePages.toNat = adding
    have hadding' : adding ≤ 128 := by omega
    have hlinear : adding * m.pageGas.toNat ≤ 128 * 2 ^ 16 :=
      Nat.mul_le_mul hadding' (Nat.le_of_lt hgas)
    have hfits : satMul64 adding m.pageGas.toNat = adding * m.pageGas.toNat :=
      Nat.min_eq_left (by unfold u64Max; omega)
    rw [hfits, satAdd64, Nat.min_eq_left (by unfold u64Max; omega), Nat.mul_comm adding]
    omega

/-- Two allocations in a row cost what one of both would. -/
theorem gasCost_split {a b opened ever : Nat} (hopened : opened ≤ ever) (hever : ever ≤ 128)
    (hafter : opened + (a + b) ≤ 128) :
    m.gasCost (a + b) opened ever =
      m.gasCost a opened ever + m.gasCost b (opened + a) (max ever (opened + a)) := by
  have hsat : ∀ x y : Nat, x + y ≤ 128 → satAdd16 x y = x + y := by
    intro x y hxy
    exact Nat.min_eq_left (by omega)
  have hboth := gasCost_eq hfree (a + b) hopened hever (by rw [hsat _ _ hafter]; omega)
  have hfirst := gasCost_eq hfree a hopened hever
    (by rw [hsat _ _ (by omega)]; omega)
  have hsecond := gasCost_eq hfree b (Nat.le_max_right ever (opened + a)) (by omega)
    (by rw [hsat _ _ (by omega)]; omega)
  rw [hsat _ _ hafter] at hboth
  rw [hsat _ _ (by omega)] at hfirst hsecond
  have hmax : max (max ever (opened + a)) (opened + a + b) = max ever (opened + (a + b)) := by omega
  rw [hmax] at hsecond
  have hlinear : max (opened + (a + b)) m.freePages.toNat - max opened m.freePages.toNat =
      (max (opened + a) m.freePages.toNat - max opened m.freePages.toNat) +
        (max (opened + a + b) m.freePages.toNat - max (opened + a) m.freePages.toNat) := by omega
  rw [hlinear, Nat.mul_add] at hboth
  omega

end Price

/-! ## The tree -/

namespace EverFollows

theorem le {ever final : Nat} {as : List Allocation} (h : EverFollows ever as final) :
    ever ≤ final := by
  induction as generalizing ever with
  | nil => exact Nat.le_of_eq h.symm
  | cons a as ih => exact Nat.le_trans (Nat.le_max_left _ _) (ih h.2)

theorem append {ever mid final : Nat} {as bs : List Allocation} (has : EverFollows ever as mid)
    (hbs : EverFollows mid bs final) : EverFollows ever (as ++ bs) final := by
  induction as generalizing ever with
  | nil => exact (show mid = ever from has) ▸ hbs
  | cons a as ih => exact ⟨has.1, ih has.2⟩

end EverFollows

/-- An allocation is charged by the table, if it can be paid at all. -/
def Allocation.Priced (m : MemoryModel) (a : Allocation) : Prop :=
  a.before.opened ≤ a.before.ever ∧
    (a.charge < u64Max → a.charge = m.gasCost a.pages a.before.opened a.before.ever)

/-- What every run from some counters keeps to. -/
structure PageRun.Ok (m : MemoryModel) (start : Pages) (r : PageRun) : Prop where
  follows : EverFollows start.ever r.allocations r.pages.ever
  bounded : r.pages.opened ≤ r.pages.ever
  priced : ∀ a ∈ r.allocations, a.Priced m
  restored : ∀ c ∈ r.returns, c.2.opened = c.1.opened

namespace PageRun.Ok

variable {m : MemoryModel} {p : Pages} {r next : PageRun}

theorem nothing (m : MemoryModel) (hp : p.opened ≤ p.ever) :
    PageRun.Ok m p ⟨[], [], p⟩ where
  follows := rfl
  bounded := hp
  priced := nofun
  restored := nofun

theorem before (hr : PageRun.Ok m p r) (hnext : PageRun.Ok m r.pages next) :
    PageRun.Ok m p (r.before next) where
  follows := hr.follows.append hnext.follows
  bounded := hnext.bounded
  priced a ha := (List.mem_append.mp ha).elim (hr.priced a) (hnext.priced a)
  restored c hc := (List.mem_append.mp hc).elim (hr.restored c) (hnext.restored c)

theorem returned (hr : PageRun.Ok m p r) (hrestored : r.pages.opened = p.opened) :
    PageRun.Ok m p (r.returned p) where
  follows := hr.follows
  bounded := hr.bounded
  priced := hr.priced
  restored c hc := by
    rcases List.mem_append.mp hc with hinner | hlast
    · exact hr.restored c hinner
    · rw [List.mem_singleton.mp hlast]
      exact hrestored

end PageRun.Ok

section Tree

variable {m : MemoryModel} {p : Pages}

theorem charge_paid {pages : Nat} (hpaid : m.charge p pages < u64Max) :
    m.charge p pages = m.gasCost pages p.opened p.ever := by
  by_cases hlimit : m.pageLimitExceeded (satAdd16 p.opened pages) = true
  · rw [MemoryModel.charge, if_pos hlimit] at hpaid
    exact absurd hpaid (Nat.lt_irrefl _)
  · exact if_neg hlimit

theorem gasCost_zero (m : MemoryModel) (hp : p.opened ≤ p.ever) :
    m.gasCost 0 p.opened p.ever = 0 := by
  have hsat : satAdd16 p.opened 0 ≤ p.opened := Nat.min_le_left _ _
  have hever : max p.ever (satAdd16 p.opened 0) = p.ever := by omega
  have hadding : satAdd16 p.opened 0 - m.freePages.toNat - (p.opened - m.freePages.toNat) = 0 := by
    omega
  simp [gasCost, hever, hadding, satMul64, satAdd64]

theorem Pages.add_bounded (p : Pages) (pages : Nat) :
    (p.add pages).opened ≤ (p.add pages).ever := Nat.le_max_right _ _

theorem overflowCharge_paid {operand : Nat} (rest : Nat)
    (hpaid : m.overflowCharge operand + rest < u64Max) : m.overflowCharge operand = 0 := by
  by_cases h : 2 ^ 16 - 1 < operand ∧ 59 ≤ m.arbosVersion
  · rw [overflowCharge, if_pos h] at hpaid
    omega
  · exact if_neg h

theorem payForMemoryGrow_ok (operand : Nat) (hp : p.opened ≤ p.ever) :
    PageRun.Ok m p (m.payForMemoryGrow operand p) := by
  unfold payForMemoryGrow
  by_cases hzero : operand % 2 ^ 16 = 0
  · simp only [hzero, if_true]
    have hsat : satAdd16 p.opened 0 ≤ p.opened := Nat.min_le_left _ _
    have hsame : p.ever = max p.ever (satAdd16 p.opened 0) := by omega
    refine ⟨⟨rfl, hsame⟩, hp, ?_, nofun⟩
    intro a ha
    obtain rfl := List.mem_singleton.mp ha
    refine ⟨hp, fun hpaid => ?_⟩
    rw [gasCost_zero m hp]
    exact overflowCharge_paid 0 hpaid
  · simp only [hzero, if_false]
    refine ⟨⟨rfl, rfl⟩, p.add_bounded _, ?_, nofun⟩
    intro a ha
    obtain rfl := List.mem_singleton.mp ha
    refine ⟨hp, fun hpaid => ?_⟩
    have hoverflow := overflowCharge_paid _ hpaid
    rw [hoverflow, Nat.zero_add] at hpaid ⊢
    exact charge_paid hpaid

theorem executeProgram_ok {run : Pages → PageRun} (footprint : Nat) (hp : p.opened ≤ p.ever)
    (hrun : ∀ start : Pages, start.opened ≤ start.ever → PageRun.Ok m start (run start)) :
    PageRun.Ok m p (m.executeProgram footprint run p) := by
  have hbody := hrun (p.add footprint) (p.add_bounded footprint)
  have hmax : max (run (p.add footprint)).pages.ever (p.add footprint).ever =
      (run (p.add footprint)).pages.ever := Nat.max_eq_left hbody.follows.le
  refine ⟨⟨rfl, ?_⟩, ?_, ?_, hbody.restored⟩
  · change EverFollows (p.add footprint).ever _ (max _ _)
    rw [hmax]
    exact hbody.follows
  · calc p.opened ≤ p.ever := hp
      _ ≤ (p.add footprint).ever := Nat.le_max_left _ _
      _ ≤ _ := Nat.le_max_right _ _
  · intro a ha
    rcases List.mem_cons.mp ha with rfl | hinner
    · exact ⟨hp, charge_paid⟩
    · exact hbody.priced a hinner

mutual

theorem PageCall.run_ok (c : PageCall) {p : Pages} (hp : p.opened ≤ p.ever) :
    PageRun.Ok m p (c.run m p) ∧ (c.run m p).pages.opened = p.opened :=
  match c with
  | .refused => ⟨.nothing m hp, rfl⟩
  | .unstarted footprint =>
    ⟨executeProgram_ok footprint.toNat hp fun _ h => .nothing m h, rfl⟩
  | .program footprint body =>
    ⟨executeProgram_ok footprint.toNat hp fun _ h => (body.run_ok h).1, rfl⟩
  | .evm body => ⟨(body.run_ok hp).1, (body.run_ok hp).2 rfl⟩

/-- The run of a frame. EVM code leaves as many pages open as it finds. -/
theorem Body.run_ok {r : PageRunner} (b : Body r) {p : Pages} (hp : p.opened ≤ p.ever) :
    PageRun.Ok m p (b.run m p) ∧ (r = .evm → (b.run m p).pages.opened = p.opened) :=
  match b with
  | .done => ⟨.nothing m hp, fun _ => rfl⟩
  | .grow operand rest =>
    have hgrow := payForMemoryGrow_ok operand hp
    ⟨hgrow.before (rest.run_ok hgrow.bounded).1, nofun⟩
  | .call callee rest =>
    have hcall := callee.run_ok hp
    have hreturned := hcall.1.returned hcall.2
    have hrest := rest.run_ok hreturned.bounded
    ⟨hreturned.before hrest.1, fun hevm => (hrest.2 hevm).trans hcall.2⟩

end

end Tree

/-! ## The sum -/

theorem PageRun.total_before (r next : PageRun) : (r.before next).total = r.total + next.total := by
  simp [PageRun.total, PageRun.before]

theorem pageLimitExceeded_mono {m : MemoryModel} {a b : Nat} (hab : a ≤ b)
    (h : m.pageLimitExceeded b = false) : m.pageLimitExceeded a = false := by
  simp only [pageLimitExceeded, Bool.and_eq_false_iff, decide_eq_false_iff_not] at h ⊢
  rcases h with h | h
  · exact Or.inl h
  · exact Or.inr (by omega)

theorem payForMemoryGrow_run {m : MemoryModel} {p : Pages} {n : Nat} (hp : p.opened ≤ p.ever)
    (hafter : p.opened + n ≤ 128) (hlimit : m.pageLimitExceeded (p.opened + n) = false) :
    (m.payForMemoryGrow n p).total = m.gasCost n p.opened p.ever ∧
      (m.payForMemoryGrow n p).pages = ⟨p.opened + n, max p.ever (p.opened + n)⟩ := by
  have hoverflow : m.overflowCharge n = 0 := if_neg (by omega)
  have hmod : n % 2 ^ 16 = n := Nat.mod_eq_of_lt (by omega)
  have hsat : satAdd16 p.opened n = p.opened + n := Nat.min_eq_left (by omega)
  unfold payForMemoryGrow
  rw [hmod, hoverflow]
  by_cases hzero : n = 0
  · have hsame : max p.ever p.opened = p.ever := by omega
    subst hzero
    simp [PageRun.total, gasCost_zero m hp, hsame]
  · simp [hzero, PageRun.total, MemoryModel.charge, Pages.add, hsat, hlimit]

section Sum

variable {m : MemoryModel} (hfree : m.freePages.toNat ≤ 5)

include hfree

/-- The charges along a run add up: the parts from the table telescope. -/
theorem total_of_follows {ever final : Nat} {as : List Allocation}
    (h : EverFollows ever as final) (hpriced : ∀ a ∈ as, a.Priced m) (hever : ever ≤ 128)
    (hcounts : ∀ a ∈ as, a.openAfter ≤ 128) (hpaid : ∀ a ∈ as, a.charge < u64Max) :
    (as.map Allocation.charge).sum + memoryExp ever =
      m.pageGas.toNat * (as.map m.addedPages).sum + memoryExp final := by
  induction as generalizing ever with
  | nil => rw [show final = ever from h]; simp
  | cons a as ih =>
    obtain ⟨hbefore, hrest⟩ := h
    obtain ⟨hopened, hcharge⟩ := hpriced a List.mem_cons_self
    have hafter := hcounts a List.mem_cons_self
    have hcost := gasCost_eq hfree a.pages hopened (by omega) hafter
    rw [← hcharge (hpaid a List.mem_cons_self), hbefore] at hcost
    have htail := ih hrest (fun b hb => hpriced b (List.mem_cons_of_mem _ hb)) (by omega)
      (fun b hb => hcounts b (List.mem_cons_of_mem _ hb))
      (fun b hb => hpaid b (List.mem_cons_of_mem _ hb))
    have hadded : m.addedPages a = max (satAdd16 a.before.opened a.pages) m.freePages.toNat -
        max a.before.opened m.freePages.toNat := rfl
    have hopenAfter : a.openAfter = satAdd16 a.before.opened a.pages := rfl
    rw [List.map_cons, List.sum_cons, List.map_cons, List.sum_cons, Nat.mul_add, hadded]
    rw [hopenAfter] at htail
    omega

/-- Growing by several operands in a row costs, and leaves, what growing by their sum does. -/
theorem growAll_run {p : Pages} (operands : List Nat) (hp : p.opened ≤ p.ever)
    (hever : p.ever ≤ 128) (hafter : p.opened + operands.sum ≤ 128)
    (hlimit : m.pageLimitExceeded (p.opened + operands.sum) = false) :
    ((growAll operands).run m p).total = m.gasCost operands.sum p.opened p.ever ∧
      ((growAll operands).run m p).pages =
        ⟨p.opened + operands.sum, max p.ever (p.opened + operands.sum)⟩ := by
  induction operands generalizing p with
  | nil =>
    refine ⟨(gasCost_zero m hp).symm, ?_⟩
    have hsame : max p.ever p.opened = p.ever := by omega
    simp [growAll, Body.run, hsame]
  | cons n operands ih =>
    rw [List.sum_cons] at hafter hlimit ⊢
    have hlimit' := pageLimitExceeded_mono (show p.opened + n ≤ _ by omega) hlimit
    obtain ⟨htotal, hpages⟩ := payForMemoryGrow_run hp (by omega) hlimit'
    rw [← Nat.add_assoc] at hafter hlimit
    have htail := ih (p := ⟨p.opened + n, max p.ever (p.opened + n)⟩) (Nat.le_max_right _ _)
      (Nat.max_le.mpr ⟨hever, by omega⟩) hafter hlimit
    have hrun : (growAll (n :: operands)).run m p = (m.payForMemoryGrow n p).before
        ((growAll operands).run m ⟨p.opened + n, max p.ever (p.opened + n)⟩) := by
      rw [← hpages]
      rfl
    rw [hrun, PageRun.total_before, htotal, htail.1,
      gasCost_split hfree hp hever (by omega)]
    refine ⟨rfl, ?_⟩
    rw [PageRun.before, htail.2]
    have hmax : max (max p.ever (p.opened + n)) (p.opened + n + operands.sum) =
        max p.ever (p.opened + (n + operands.sum)) := by omega
    rw [hmax, Nat.add_assoc]

end Sum

/-- The memory of a transaction costs the same however it is taken. For every tree of calls and
    memory grows whose charges can all be paid, with at most five free pages and counts of at most
    a hundred and twenty-eight: every call returns with as many pages open as it was made with;
    at every allocation, and at the end, the count of pages ever open is the largest number open so
    far; the charges are the price of the pages added beyond the free ones and the rise of the
    table. So two ways to grow by the same number of pages cost the same and leave the same. -/
theorem memory_pricing_path_independent (m : MemoryModel) (hfree : m.freePages.toNat ≤ 5)
    (c : PageCall) (p : Pages) (hp : p.opened ≤ p.ever) (hever : p.ever ≤ 128)
    (hcounts : ∀ a ∈ (c.run m p).allocations, a.openAfter ≤ 128)
    (hpaid : ∀ a ∈ (c.run m p).allocations, a.charge < u64Max) :
    (∀ call ∈ ((c.run m p).returned p).returns, call.2.opened = call.1.opened) ∧
      EverFollows p.ever (c.run m p).allocations (c.run m p).pages.ever ∧
      (c.run m p).total + memoryExp p.ever =
        m.pageGas.toNat * ((c.run m p).allocations.map m.addedPages).sum +
          memoryExp (c.run m p).pages.ever ∧
      ∀ (env : Pages) (operands operands' : List Nat), env.opened ≤ env.ever → env.ever ≤ 128 →
        env.opened + operands.sum ≤ 128 →
        m.pageLimitExceeded (env.opened + operands.sum) = false →
        operands'.sum = operands.sum →
          ((growAll operands').run m env).total = ((growAll operands).run m env).total ∧
            ((growAll operands').run m env).pages = ((growAll operands).run m env).pages := by
  obtain ⟨hok, hrestored⟩ := c.run_ok (m := m) hp
  refine ⟨(hok.returned hrestored).restored, hok.follows, ?_, ?_⟩
  · exact total_of_follows hfree hok.follows hok.priced hever hcounts hpaid
  · intro env operands operands' henv hever' hafter hlimit hsum
    obtain ⟨htotal, hpages⟩ := growAll_run hfree operands henv hever' hafter hlimit
    obtain ⟨htotal', hpages'⟩ := growAll_run hfree operands' henv hever'
      (hsum ▸ hafter) (hsum ▸ hlimit)
    rw [htotal, htotal', hpages, hpages', hsum]
    exact ⟨rfl, rfl⟩

/-- Two free pages, a thousand gas for each further one. -/
def sampleMemory : MemoryModel := ⟨2, 1000, 128, 60⟩

/-- A program with three pages that grows by four, calls through EVM code a program with two pages
    that grows by six, and grows by one page more. -/
def sampleCall : PageCall :=
  .program 3 (.grow 4 (.call (.evm (.call (.program 2 (.grow 6 .done)) .done)) (.grow 1 .done)))

/-- The counters at the start of a transaction. -/
def Pages.none : Pages := ⟨0, 0⟩

/-- From no pages open it is charged for fourteen pages and for the rise of the table. -/
theorem memory_pricing_sample :
    (sampleCall.run sampleMemory .none).total = 14006 ∧
      (sampleCall.run sampleMemory .none).total + memoryExp Pages.none.ever =
        sampleMemory.pageGas.toNat *
            ((sampleCall.run sampleMemory .none).allocations.map sampleMemory.addedPages).sum +
          memoryExp (sampleCall.run sampleMemory .none).pages.ever := by
  refine ⟨by decide +kernel, ?_⟩
  exact (memory_pricing_path_independent sampleMemory (by decide) sampleCall .none (by decide)
    (by decide) (by decide +kernel) (by decide +kernel)).2.2.1

end Arbreth.Stylus
