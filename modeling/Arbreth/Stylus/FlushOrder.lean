/-
  The flush and the order of the slots.

  The loop is described once: what it buys is `bought` of the recorded gas of the writes
  (`flushSlots_multiGas`), with all it leaves when everything is paid (`flushSlots_paid`) and
  what it reports when not (`flushSlots_short`). Everything but the recorded gas is a sum or a
  set of writes with different keys, so it is the same in every order.
-/
import Arbreth.Stylus.Flush

namespace Arbreth.Stylus

open Arbreth.Lib
open Arbreth.L2Pricing (MultiGas ResourceKind)

/-! ## The writes as things to buy -/

theorem kindsSum_stateStore (info : SStoreInfo) :
    kindsSum (stateStore info).gas = sstoreGasCost info := sum_stateStore info

/-- The recorded gas of each write. -/
def recordedGas (infos : List SStoreInfo) : List (ResourceKind → ℕ) :=
  infos.map fun i => (stateStore i).gas

theorem kindsSum_recordedGas (infos : List SStoreInfo) :
    kindsSum (recordedGas infos).sum = (infos.map sstoreGasCost).sum := by
  induction infos with
  | nil => rfl
  | cons i infos ih =>
    rw [recordedGas, List.map_cons, List.sum_cons, map_add, kindsSum_stateStore, List.map_cons,
      List.sum_cons]
    exact congrArg _ ih

/-! ## The loop -/

section Loop

theorem info_sstore {s : JournalStorage} {key k : B256} (h : k ≠ key) (value v : B256) :
    (s.sstore key value).info k v = s.info k v := by
  simp [JournalStorage.info, JournalStorage.sstore, h]

/-- The reports of a list of writes, if each is made first. -/
def reports (s : JournalStorage) (writes : List (B256 × B256)) : List SStoreInfo :=
  writes.map fun w => s.info w.1 w.2

theorem reports_sstore {s : JournalStorage} {key : B256} (value : B256)
    {writes : List (B256 × B256)} (h : key ∉ writes.map Prod.fst) :
    reports (s.sstore key value) writes = reports s writes := by
  refine List.map_congr_left fun w hw => info_sstore ?_ value w.2
  rintro rfl
  exact h (List.mem_map_of_mem hw)

variable (gasLeft : Nat) {writes : List (B256 × B256)} {s : FlushLoop}

theorem flushSlots_multiGas (hkeys : (writes.map Prod.fst).Nodup) :
    (flushSlots gasLeft writes s).multiGas.gas =
      s.multiGas.gas +
        (bought kindsSum s.remaining (recordedGas (reports s.storage writes))).sum := by
  induction writes generalizing s with
  | nil => exact (add_zero _).symm
  | cons w writes ih =>
    obtain ⟨hnew, hkeys⟩ := List.nodup_cons.mp hkeys
    rw [flushSlots, reports, List.map_cons, recordedGas, List.map_cons, bought,
      kindsSum_stateStore]
    split
    · exact (add_zero _).symm
    · rw [ih hkeys, reports_sstore _ hnew, addMultiGas_gas, List.sum_cons, add_assoc]
      rfl

theorem flushSlots_paid (hkeys : (writes.map Prod.fst).Nodup)
    (hpaid : ((reports s.storage writes).map sstoreGasCost).sum ≤ s.remaining) :
    (flushSlots gasLeft writes s).storage =
        writes.foldl (fun t w => t.sstore w.1 w.2) s.storage ∧
      (flushSlots gasLeft writes s).sstoreRefund =
        s.sstoreRefund + ((reports s.storage writes).map sstoreRefund).sum ∧
      (flushSlots gasLeft writes s).totalGas =
        s.totalGas + ((reports s.storage writes).map sstoreGasCost).sum ∧
      (flushSlots gasLeft writes s).remaining =
        s.remaining - ((reports s.storage writes).map sstoreGasCost).sum ∧
      (flushSlots gasLeft writes s).isOutOfGas = s.isOutOfGas := by
  induction writes generalizing s with
  | nil => simp [flushSlots, reports]
  | cons w writes ih =>
    obtain ⟨hnew, hkeys⟩ := List.nodup_cons.mp hkeys
    have hreports := reports_sstore (s := s.storage) w.2 hnew
    have hcons : reports s.storage (w :: writes) =
        s.storage.info w.1 w.2 :: reports s.storage writes := rfl
    rw [hcons, List.map_cons, List.sum_cons] at hpaid
    have hfits : ¬ s.remaining < sstoreGasCost (s.storage.info w.1 w.2) := by omega
    rw [flushSlots, if_neg hfits]
    obtain ⟨hstorage, hrefund, htotal, hremaining, hflag⟩ := ih hkeys (s := {
        storage := s.storage.sstore w.1 w.2
        totalGas := s.totalGas + sstoreGasCost (s.storage.info w.1 w.2)
        remaining := s.remaining - sstoreGasCost (s.storage.info w.1 w.2)
        sstoreRefund := s.sstoreRefund + sstoreRefund (s.storage.info w.1 w.2)
        multiGas := addMultiGas s.multiGas (stateStore (s.storage.info w.1 w.2))
        isOutOfGas := s.isOutOfGas }) (by rw [hreports]; dsimp only; omega)
    rw [hreports] at hrefund htotal hremaining
    rw [hcons]
    simp only [List.map_cons, List.sum_cons]
    refine ⟨hstorage, ?_, ?_, ?_, hflag⟩
    · rw [hrefund, add_assoc]
    · rw [htotal, add_assoc]
    · rw [hremaining, Nat.sub_sub]

theorem flushSlots_short (hkeys : (writes.map Prod.fst).Nodup)
    (hshort : s.remaining < ((reports s.storage writes).map sstoreGasCost).sum) :
    (flushSlots gasLeft writes s).totalGas = gasLeft ∧
      (flushSlots gasLeft writes s).isOutOfGas = true := by
  induction writes generalizing s with
  | nil => simp [reports] at hshort
  | cons w writes ih =>
    obtain ⟨hnew, hkeys⟩ := List.nodup_cons.mp hkeys
    have hcons : reports s.storage (w :: writes) =
        s.storage.info w.1 w.2 :: reports s.storage writes := rfl
    rw [hcons, List.map_cons, List.sum_cons] at hshort
    rw [flushSlots]
    split
    · exact ⟨rfl, rfl⟩
    · refine ih hkeys ?_
      rw [reports_sstore _ hnew]
      dsimp only
      omega

end Loop

/-! ## The flush -/

theorem StorageCache.dirty_keys (c : StorageCache) : (c.dirty.map Prod.fst).Nodup := by
  have hmap : c.dirty.map Prod.fst = (c.slots.filter (·.2.dirty)).map Prod.fst := by
    rw [dirty, List.map_map]
    rfl
  rw [hmap]
  exact (List.filter_sublist.map Prod.fst).nodup c.distinct

section Flush

variable {env : HostEnv} {api : HostState}

/-- The loop of a flush, run on all its writes. -/
def HostState.flushed (api : HostState) (gasLeft : Nat) : FlushLoop :=
  flushSlots gasLeft api.cache.dirty
    ⟨api.storage, 0, gasLeft, api.sstoreRefund, api.multiGas, false⟩

/-- A flush that gets to its loop. -/
theorem flush_written (clear : Bool) (gasLeft : Nat) (h : api.cache.dirty ≠ [])
    (hwrites : env.readOnly = false) :
    ∃ cache, flushStorageCache env clear gasLeft api =
      (⟨(api.flushed gasLeft).storage, cache, (api.flushed gasLeft).sstoreRefund,
          (api.flushed gasLeft).multiGas⟩, (api.flushed gasLeft).totalGas,
        if (api.flushed gasLeft).isOutOfGas ∨ (api.flushed gasLeft).remaining = 0 then
          if env.arbosVersion < 50 then .failure else .outOfInk
        else .success) := by
  have hstatic : ¬ env.readOnly = true := by simp [hwrites]
  simp only [flushStorageCache, if_neg h, if_neg hstatic]
  split
  · next hout => exact ⟨_, by rw [HostState.flushed, if_pos hout]⟩
  · next hin => exact ⟨_, by rw [HostState.flushed, if_neg hin]⟩

/-- What a flush reports, by the cost of the writes, what it records, and what it leaves where it
    succeeds. -/
theorem flush_spec (env : HostEnv) (clear : Bool) (gasLeft : Nat) (api : HostState) :
    let r := flushStorageCache env clear gasLeft api
    r.2 = (if api.cache.dirty = [] then (0, .success)
      else if env.readOnly then (0, .failure)
      else if flushCost api.storage api.cache < gasLeft then
        (flushCost api.storage api.cache, .success)
      else (gasLeft, if env.arbosVersion < 50 then .failure else .outOfInk)) ∧
    r.1.multiGas.gas = api.multiGas.gas + (if env.readOnly then 0
      else (bought kindsSum gasLeft (recordedGas (flushInfos api.storage api.cache))).sum) ∧
    (r.2.2 = .success →
      r.1.storage = api.cache.dirty.foldl (fun t w => t.sstore w.1 w.2) api.storage ∧
      r.1.sstoreRefund =
        api.sstoreRefund + ((flushInfos api.storage api.cache).map sstoreRefund).sum) := by
  by_cases hdirty : api.cache.dirty = []
  · simp only [flushStorageCache, if_pos hdirty]
    refine ⟨trivial, ?_, fun _ => ?_⟩
    · simp [flushInfos, hdirty, recordedGas, bought]
    · simp [flushInfos, hdirty]
  rw [if_neg hdirty]
  cases hstatic : env.readOnly with
  | true =>
    simp only [flushStorageCache, if_neg hdirty, hstatic, if_true]
    exact ⟨trivial, (add_zero _).symm, fun h => absurd h (by decide)⟩
  | false =>
    obtain ⟨cache, hflush⟩ := flush_written clear gasLeft hdirty hstatic
    rw [hflush, if_neg Bool.false_ne_true, if_neg Bool.false_ne_true, HostState.flushed]
    have hmulti := flushSlots_multiGas gasLeft
      (s := ⟨api.storage, 0, gasLeft, api.sstoreRefund, api.multiGas, false⟩) api.cache.dirty_keys
    by_cases hpaid : flushCost api.storage api.cache ≤ gasLeft
    · obtain ⟨hstorage, hrefund, htotal, hremaining, hflag⟩ := flushSlots_paid gasLeft
        (s := ⟨api.storage, 0, gasLeft, api.sstoreRefund, api.multiGas, false⟩)
        api.cache.dirty_keys hpaid
      refine ⟨?_, hmulti, fun _ => ⟨hstorage, hrefund⟩⟩
      change _ = 0 + flushCost api.storage api.cache at htotal
      change _ = gasLeft - flushCost api.storage api.cache at hremaining
      rw [htotal, hremaining, hflag, Nat.zero_add]
      by_cases hexact : flushCost api.storage api.cache = gasLeft
      · simp [hexact]
      · have hless : flushCost api.storage api.cache < gasLeft := by omega
        have hleft : ¬ gasLeft - flushCost api.storage api.cache = 0 := by omega
        simp [hless, hleft]
    · obtain ⟨htotal, hflag⟩ := flushSlots_short gasLeft
        (s := ⟨api.storage, 0, gasLeft, api.sstoreRefund, api.multiGas, false⟩)
        api.cache.dirty_keys (Nat.lt_of_not_le hpaid)
      have hmore : ¬ flushCost api.storage api.cache < gasLeft := by omega
      refine ⟨by simp [htotal, hflag, hmore], hmulti, fun hsuccess => ?_⟩
      rw [if_pos (.inl hflag)] at hsuccess
      split at hsuccess <;> cases hsuccess

end Flush

/-! ## Orders -/

namespace StorageCache.Reorders

variable {c d : StorageCache}

theorem dirty_perm (h : c.Reorders d) : c.dirty.Perm d.dirty := (h.filter _).map _

theorem infos_perm (h : c.Reorders d) (s : JournalStorage) :
    (flushInfos s c).Perm (flushInfos s d) := h.dirty_perm.map _

theorem recorded_perm (h : c.Reorders d) (s : JournalStorage) :
    (recordedGas (flushInfos s c)).Perm (recordedGas (flushInfos s d)) := (h.infos_perm s).map _

theorem flushCost_eq (h : c.Reorders d) (s : JournalStorage) : flushCost s c = flushCost s d :=
  ((h.infos_perm s).map _).sum_eq

theorem dirty_eq_nil (h : c.Reorders d) : c.dirty = [] ↔ d.dirty = [] :=
  ⟨fun hc => (hc ▸ h.dirty_perm).nil_eq.symm, fun hd => (hd ▸ h.dirty_perm).eq_nil⟩

theorem stored_eq (h : c.Reorders d) (s : JournalStorage) :
    c.dirty.foldl (fun t w => t.sstore w.1 w.2) s =
      d.dirty.foldl (fun t w => t.sstore w.1 w.2) s := by
  refine h.dirty_perm.foldl_eq' ?_ s
  intro x hx y hy t
  by_cases hkey : x.1 = y.1
  · rw [List.inj_on_of_nodup_map c.dirty_keys hx hy hkey]
  · funext k
    simp only [JournalStorage.sstore]
    by_cases hkx : k = x.1
    · subst hkx
      simp [hkey]
    · simp [hkx, Ne.symm hkey]

end StorageCache.Reorders

/-- Every order of the recorded gas is an order of the cache. -/
theorem exists_reorders {c : StorageCache} {s : JournalStorage} {l : List (ResourceKind → ℕ)}
    (h : l.Perm (recordedGas (flushInfos s c))) :
    ∃ d : StorageCache, d.Reorders c ∧ recordedGas (flushInfos s d) = l := by
  rw [recordedGas, flushInfos, StorageCache.dirty, List.map_map, List.map_map] at h
  obtain ⟨k, hk, hmap⟩ := exists_perm_map_eq h
  have hperm : (k ++ c.slots.filter (fun x => !x.2.dirty)).Perm c.slots :=
    (hk.append_right _).trans (List.filter_append_perm _ _)
  refine ⟨⟨k ++ c.slots.filter (fun x => !x.2.dirty), ?_⟩, hperm, ?_⟩
  · exact (hperm.map Prod.fst).nodup_iff.mpr c.distinct
  · have hfilter : (k ++ c.slots.filter (fun x => !x.2.dirty)).filter (·.2.dirty) = k := by
      have hdirty : k.filter (·.2.dirty) = k := by
        rw [List.filter_eq_self]
        intro x hx
        exact (List.mem_filter.mp (hk.mem_iff.mp hx)).2
      rw [List.filter_append, hdirty, List.filter_filter]
      simp
    rw [recordedGas, flushInfos, StorageCache.dirty, hfilter, List.map_map, List.map_map]
    exact hmap

/-! ## The host function -/

section Host

variable {env : HostEnv} {clear : Bool} {ink : Nat} {api : HostState}

/-- How the host function ends after a flush with this report. -/
def HostEnv.ending (env : HostEnv) (ink : Nat) : Nat × FlushOutcome → HostEnd
  | (gasCost, .success) => env.settle ink gasCost .ok
  | (_, .failure) => .failed ink
  | (gasCost, .outOfInk) => env.settle ink gasCost .failed

open HostEnv

theorem host_unreached (clear : Bool) (api : HostState) (h : ¬ env.Reaches ink) :
    storageFlushCache env clear ink api = (api, .outOfInk) := by
  unfold storageFlushCache
  by_cases hbase : ink < storageFlushBaseInk
  · rw [if_pos hbase]
  · have hsentry : ink - storageFlushBaseInk < env.gasToInk sstoreSentryGas := by
      by_contra hmore
      exact h ⟨Nat.le_of_not_lt hbase, Nat.le_of_not_lt hmore⟩
    rw [if_neg hbase]
    exact if_pos hsentry

theorem host_reached (clear : Bool) (api : HostState) (h : env.Reaches ink) :
    storageFlushCache env clear ink api =
      ((flushStorageCache env clear (env.available ink + 1) api).1,
        env.ending (ink - storageFlushBaseInk)
          (flushStorageCache env clear (env.available ink + 1) api).2) := by
  unfold storageFlushCache
  rw [if_neg (Nat.not_lt.mpr h.1)]
  rw [if_neg (Nat.not_lt.mpr h.2)]
  rcases hflush : flushStorageCache env clear ((ink - storageFlushBaseInk) / env.inkPrice + 1) api
    with ⟨api', gasCost, status⟩
  have hflush' : flushStorageCache env clear (env.available ink + 1) api =
    (api', gasCost, status) := hflush
  rw [hflush']
  cases status <;> rfl

theorem settle_available {gasCost : Nat} (h : gasCost ≤ env.available ink) (next : Nat → HostEnd) :
    ∃ left, env.settle (ink - storageFlushBaseInk) gasCost next = next left := by
  have hink : env.gasToInk gasCost ≤ ink - storageFlushBaseInk := by
    calc env.gasToInk gasCost ≤ gasCost * env.inkPrice := Nat.min_le_left _ _
      _ ≤ env.available ink * env.inkPrice := Nat.mul_le_mul_right _ h
      _ ≤ ink - storageFlushBaseInk := Nat.div_mul_le_self _ _
  unfold settle buyGas
  split
  · exact ⟨_, if_neg (Nat.not_lt.mpr hink)⟩
  · exact ⟨_, rfl⟩

theorem settle_failed (env : HostEnv) (ink gasCost : Nat) :
    (env.settle ink gasCost .failed).isOk = false := by
  unfold settle buyGas
  split
  · split <;> rfl
  · rfl

theorem flushCost_of_clean (h : api.cache.dirty = []) :
    flushCost api.storage api.cache = 0 := by
  simp [flushCost, flushInfos, h]

/-- The flush succeeds where it gets to its writes, may make them and can pay for them. -/
theorem host_isOk_iff (env : HostEnv) (clear : Bool) (ink : Nat) (api : HostState) :
    (storageFlushCache env clear ink api).2.isOk = true ↔
      env.Reaches ink ∧ (env.readOnly = true → api.cache.dirty = []) ∧
        flushCost api.storage api.cache ≤ env.available ink := by
  by_cases hreach : env.Reaches ink
  swap
  · rw [host_unreached clear api hreach]
    simp [HostEnd.isOk, hreach]
  rw [host_reached clear api hreach, (flush_spec ..).1]
  by_cases hdirty : api.cache.dirty = []
  · obtain ⟨left, hleft⟩ := settle_available (Nat.zero_le (env.available ink)) .ok
    rw [if_pos hdirty, ending, hleft, flushCost_of_clean hdirty]
    simp [HostEnd.isOk, hreach, hdirty]
  rw [if_neg hdirty]
  cases hstatic : env.readOnly with
  | true => simp [ending, HostEnd.isOk, hdirty]
  | false =>
    rw [if_neg (by simp)]
    by_cases hpaid : flushCost api.storage api.cache ≤ env.available ink
    · obtain ⟨left, hleft⟩ := settle_available hpaid .ok
      rw [if_pos (Nat.lt_succ_of_le hpaid), ending, hleft]
      simp [HostEnd.isOk, hreach, hpaid]
    · rw [if_neg fun h => hpaid (Nat.le_of_lt_succ h)]
      split
      · simp [ending, HostEnd.isOk, hpaid]
      · simp [ending, settle_failed, hpaid]

theorem flush_success_of_isOk
    (h : (storageFlushCache env clear ink api).2.isOk = true) :
    (flushStorageCache env clear (env.available ink + 1) api).2.2 = .success := by
  obtain ⟨-, hstatic, hpaid⟩ := (host_isOk_iff env clear ink api).mp h
  rw [(flush_spec ..).1]
  by_cases hdirty : api.cache.dirty = []
  · rw [if_pos hdirty]
  · have hwrites : ¬ env.readOnly = true := fun h => hdirty (hstatic h)
    rw [if_neg hdirty, if_neg hwrites, if_pos (Nat.lt_succ_of_le hpaid)]

end Host

/-! ## All orders -/

section Agree

variable {env : HostEnv} {api : HostState} {c d : StorageCache}

theorem host_ending_eq (clear : Bool) (ink : Nat) (h : c.Reorders d) :
    (storageFlushCache env clear ink { api with cache := c }).2 =
      (storageFlushCache env clear ink { api with cache := d }).2 := by
  by_cases hreach : env.Reaches ink
  · rw [host_reached _ _ hreach, host_reached _ _ hreach]
    simp only [(flush_spec ..).1, h.flushCost_eq api.storage, h.dirty_eq_nil]
  · rw [host_unreached _ _ hreach, host_unreached _ _ hreach]

theorem host_stored_eq (clear : Bool) (ink : Nat) (h : c.Reorders d)
    (hok : (storageFlushCache env clear ink { api with cache := c }).2.isOk = true) :
    (storageFlushCache env clear ink { api with cache := c }).1.storage =
        (storageFlushCache env clear ink { api with cache := d }).1.storage ∧
      (storageFlushCache env clear ink { api with cache := c }).1.sstoreRefund =
        (storageFlushCache env clear ink { api with cache := d }).1.sstoreRefund := by
  have hreach := ((host_isOk_iff env clear ink _).mp hok).1
  have hok' := hok
  rw [host_ending_eq clear ink h] at hok'
  obtain ⟨hstorage, hrefund⟩ := (flush_spec ..).2.2 (flush_success_of_isOk hok)
  obtain ⟨hstorage', hrefund'⟩ := (flush_spec ..).2.2 (flush_success_of_isOk hok')
  rw [host_reached _ _ hreach, host_reached _ _ hreach]
  rw [hstorage, hstorage', hrefund, hrefund', h.stored_eq, ((h.infos_perm _).map _).sum_eq]
  exact ⟨rfl, rfl⟩

theorem host_multiGas (env : HostEnv) (clear : Bool) (ink : Nat) (api : HostState) :
    (env.Reaches ink → env.readOnly = false →
      (storageFlushCache env clear ink api).1.multiGas.gas = api.multiGas.gas +
        (bought kindsSum (env.available ink + 1)
          (recordedGas (flushInfos api.storage api.cache))).sum) ∧
    (¬ (env.Reaches ink ∧ env.readOnly = false) →
      (storageFlushCache env clear ink api).1.multiGas.gas = api.multiGas.gas) := by
  refine ⟨fun hreach hwrites => ?_, fun h => ?_⟩
  · rw [host_reached _ _ hreach, (flush_spec ..).2.1, if_neg (by simp [hwrites])]
  · by_cases hreach : env.Reaches ink
    · have hstatic : env.readOnly = true := by
        cases hr : env.readOnly with
        | true => rfl
        | false => exact absurd ⟨hreach, hr⟩ h
      rw [host_reached _ _ hreach, (flush_spec ..).2.1, if_pos hstatic, add_zero]
    · rw [host_unreached _ _ hreach]

theorem bought_wasmComputation (budget : Nat) (infos : List SStoreInfo) :
    (bought kindsSum budget (recordedGas infos)).sum .wasmComputation = 0 := by
  induction infos generalizing budget with
  | nil => rfl
  | cons i infos ih =>
    rw [recordedGas, List.map_cons, bought]
    split
    · rfl
    · rw [List.sum_cons, Pi.add_apply, stateStore_wasmComputation]
      exact (Nat.zero_add _).trans (ih _)

theorem host_wasmComputation (clear : Bool) (ink : Nat) (api : HostState) :
    (storageFlushCache env clear ink api).1.multiGas.gas .wasmComputation =
      api.multiGas.gas .wasmComputation := by
  obtain ⟨hrecorded, hsame⟩ := host_multiGas env clear ink api
  by_cases h : env.Reaches ink ∧ env.readOnly = false
  · rw [hrecorded h.1 h.2, Pi.add_apply, bought_wasmComputation, Nat.add_zero]
  · rw [hsame h]

/-- The gas handed on by a program that ended tells what was recorded. -/
theorem attribute_injective {a b : MultiGas} {starting left : Nat}
    (hwasm : a.gas .wasmComputation = b.gas .wasmComputation)
    (h : attributeWasmComputation a starting left = attributeWasmComputation b starting left) :
    a = b := by
  refine multiGas_ext (funext fun k => ?_)
  by_cases hk : k = .wasmComputation
  · rw [hk, hwasm]
  · have hgas := congrFun (congrArg MultiGas.gas h) k
    simpa [attributeWasmComputation, hk] using hgas

variable {frame : ProgramFrame} {r r' : HostState × HostEnd}

theorem handedOn_injective (hend : r.2 = r'.2) (hfailed : r.2.isOk = false)
    (hwasm : r.1.multiGas.gas .wasmComputation = r'.1.multiGas.gas .wasmComputation)
    (h : frame.handedOn env r = frame.handedOn env r') : r.1.multiGas = r'.1.multiGas := by
  simp only [ProgramFrame.handedOn, ← hend] at h
  cases hr : r.2 with
  | ok ink => simp [hr, HostEnd.isOk] at hfailed
  | outOfInk =>
    rw [hr] at h
    exact attribute_injective hwasm h
  | failed ink =>
    rw [hr] at h
    exact attribute_injective hwasm h

theorem handedOn_eq (hend : r.2 = r'.2)
    (hstored : r.2.isOk = true → r.1.storage = r'.1.storage ∧ r.1.sstoreRefund = r'.1.sstoreRefund)
    (hmulti : r.1.multiGas = r'.1.multiGas) : frame.handedOn env r = frame.handedOn env r' := by
  simp only [ProgramFrame.handedOn, ← hend, ← hmulti]
  cases hr : r.2 with
  | ok ink =>
    obtain ⟨hstorage, hrefund⟩ := hstored (by rw [hr]; rfl)
    rw [hstorage, hrefund]
  | outOfInk => rfl
  | failed ink => rfl

/-- All orders record the same gas. -/
def SameRecorded (env : HostEnv) (clear : Bool) (ink : Nat) (api : HostState) : Prop :=
  ∀ c d : StorageCache, c.Reorders api.cache → d.Reorders api.cache →
    (storageFlushCache env clear ink { api with cache := c }).1.multiGas =
      (storageFlushCache env clear ink { api with cache := d }).1.multiGas

theorem orderFree_of_paid {budget : Nat} {infos : List SStoreInfo}
    (h : (infos.map sstoreGasCost).sum ≤ budget) :
    OrderFree kindsSum budget (recordedGas infos) := by
  intro l hl
  have hpaid : kindsSum (recordedGas infos).sum ≤ budget := by rwa [kindsSum_recordedGas]
  rw [bought_all hpaid, bought_all (by rwa [hl.sum_eq]), hl.sum_eq]

theorem sameRecorded_of_unwritten (clear : Bool) {ink : Nat}
    (h : ¬ (env.Reaches ink ∧ env.readOnly = false)) : SameRecorded env clear ink api := by
  intro c d _ _
  refine multiGas_ext ?_
  rw [(host_multiGas env clear ink _).2 h, (host_multiGas env clear ink _).2 h]

theorem sameRecorded_iff_orderFree (clear : Bool) {ink : Nat} (hreach : env.Reaches ink)
    (hwrites : env.readOnly = false) :
    SameRecorded env clear ink api ↔ OrderFree kindsSum (env.available ink + 1)
      (recordedGas (flushInfos api.storage api.cache)) := by
  have hgas := fun c : StorageCache =>
    (host_multiGas env clear ink { api with cache := c }).1 hreach hwrites
  constructor
  · intro h l hl
    obtain ⟨c, hc, rfl⟩ := exists_reorders hl
    have heq := congrArg MultiGas.gas (h c api.cache hc (List.Perm.refl _))
    rw [hgas c, hgas api.cache] at heq
    exact add_left_cancel heq
  · intro h c d hc hd
    refine multiGas_ext ?_
    rw [hgas c, hgas d]
    rw [h _ (hc.recorded_perm _), h _ (hd.recorded_perm _)]

theorem sameRecorded_iff (env : HostEnv) (clear : Bool) (ink : Nat) (api : HostState) :
    SameRecorded env clear ink api ↔ ShortIsUniform env ink api := by
  by_cases hwrites : env.Reaches ink ∧ env.readOnly = false
  swap
  · refine ⟨fun _ hreach hstatic => absurd ⟨hreach, hstatic⟩ hwrites, fun _ => ?_⟩
    exact sameRecorded_of_unwritten clear hwrites
  rw [sameRecorded_iff_orderFree clear hwrites.1 hwrites.2]
  by_cases hpaid : flushCost api.storage api.cache ≤ env.available ink + 1
  · refine ⟨fun _ _ _ hshort => absurd hpaid (Nat.not_le.mpr hshort), fun _ => ?_⟩
    exact orderFree_of_paid hpaid
  · have hover : env.available ink + 1 <
        kindsSum (recordedGas (flushInfos api.storage api.cache)).sum := by
      rw [kindsSum_recordedGas]
      exact Nat.lt_of_not_le hpaid
    have hpos : ∀ v ∈ recordedGas (flushInfos api.storage api.cache), 0 < kindsSum v := by
      intro v hv
      obtain ⟨i, -, rfl⟩ := List.mem_map.mp hv
      rw [kindsSum_stateStore]
      exact sstoreGasCost_pos i
    rw [orderFree_iff hpos hover]
    simp only [recordedGas, List.forall_mem_map, kindsSum_stateStore]
    have hsame : ∀ i j : SStoreInfo,
        (stateStore i).gas = (stateStore j).gas ↔ stateStore i = stateStore j :=
      fun i j => ⟨multiGas_ext, fun h => by rw [h]⟩
    simp only [hsame]
    exact ⟨fun h _ _ _ => h, fun h => h hwrites.1 hwrites.2 (Nat.lt_of_not_le hpaid)⟩

/-- All orders of a cache agree exactly where what can be paid is made, and where a flush that
    falls short has nothing that tells the orders apart. -/
theorem flush_orders_agree_iff (frame : ProgramFrame) (env : HostEnv) (clear : Bool) (ink : Nat)
    (api : HostState) :
    OrdersAgree frame env clear ink api ↔ PaidAreMade env ink api ∧ ShortIsUniform env ink api := by
  rw [← sameRecorded_iff env clear ink api]
  have hok := fun c : StorageCache => host_isOk_iff env clear ink { api with cache := c }
  constructor
  · intro h
    constructor
    · intro hpaid
      have hmade := (h api.cache api.cache (List.Perm.refl _) (List.Perm.refl _)).2.mpr hpaid
      obtain ⟨hreach, hstatic, -⟩ := (hok api.cache).mp hmade
      exact ⟨hreach, hstatic⟩
    · intro c d hc hd
      have hcd : c.Reorders d := hc.trans hd.symm
      have hagree := (h c d hc hd).1
      cases hended : (storageFlushCache env clear ink { api with cache := c }).2.isOk with
      | false =>
        refine handedOn_injective hagree.ending hended ?_ hagree.handed
        rw [host_wasmComputation, host_wasmComputation]
      | true =>
        -- everything was paid, so everything was recorded
        obtain ⟨hreach, -, hpaid⟩ := (hok c).mp hended
        by_cases hwrites : env.readOnly = false
        · refine (sameRecorded_iff_orderFree clear hreach hwrites).mpr ?_ c d hc hd
          have hcost : flushCost api.storage api.cache ≤ env.available ink + 1 := by
            rw [← hc.flushCost_eq api.storage]
            exact Nat.le_succ_of_le hpaid
          exact orderFree_of_paid hcost
        · exact sameRecorded_of_unwritten clear (fun h => hwrites h.2) c d hc hd
  · rintro ⟨hpaid, hsame⟩ c d hc hd
    have hcd : c.Reorders d := hc.trans hd.symm
    refine ⟨⟨host_ending_eq clear ink hcd, host_stored_eq clear ink hcd, ?_⟩, ?_⟩
    · exact handedOn_eq (host_ending_eq clear ink hcd) (host_stored_eq clear ink hcd)
        (hsame c d hc hd)
    · rw [hok c]
      rw [hc.flushCost_eq api.storage, hc.dirty_eq_nil]
      exact ⟨fun h => h.2.2, fun h => ⟨(hpaid h).1, (hpaid h).2, h⟩⟩

end Agree

/-! ## Two orders -/

/-- A program with 2999 gas left for the writes, at a price of one. -/
def sampleHost : HostEnv := ⟨60, 1, false⟩

/-- It changes a slot that is set, and sets one that is not. -/
def sampleFlush (slots : List (B256 × StorageCacheEntry)) (h : (slots.map Prod.fst).Nodup) :
    HostState × HostEnd :=
  storageFlushCache sampleHost true (storageFlushBaseInk + 2999)
    ⟨fun key => if key = 0 then ⟨1, 1, true⟩ else ⟨0, 0, true⟩, ⟨slots, h⟩, 0, ⟨fun _ => 0⟩⟩

def sampleProgram : ProgramFrame := ⟨100000, 0, none, fun _ _ used _ => (used, 0, 0)⟩

/-- In the order in which the cheap write comes first it is recorded, in the other nothing is. -/
theorem flush_depends_on_order :
    (sampleProgram.handedOn sampleHost
        (sampleFlush [(0, ⟨2, none⟩), (1, ⟨1, none⟩)] (by decide))).gas .storageAccessWrite = 2900 ∧
      (sampleProgram.handedOn sampleHost
        (sampleFlush [(1, ⟨1, none⟩), (0, ⟨2, none⟩)] (by decide))).gas .storageAccessWrite = 0 := by
  decide +kernel

end Arbreth.Stylus
