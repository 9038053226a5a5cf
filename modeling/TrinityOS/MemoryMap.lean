import TrinityOS.Accounting
import TrinityOS.Allocation
import TrinityOS.Reports

namespace TrinityOS

open SystemTables

namespace SystemTables

structure MemoryMapLaid (t : SystemTables) : Prop where
  inOrder : ∀ p, t.getMemoryMap (some p) = (t.processMemory.getD p []).filterMap t.getMemoryInfo
  apart : ∀ p, (t.getMemoryMap (some p)).Pairwise fun a b => a.start + a.size ≤ b.start
  complete : ∀ row ∈ t.getMemoryMap none, row ∈ t.getMemoryMap (some row.ownerPid)
  usage : ∀ p report, t.CreatedByCall p → t.getProcessInfo p = some report →
    report.memoryUsage = ((t.getMemoryMap (some p)).map (·.size)).sum

variable {uuid4 : ℕ → String} {t t' : SystemTables} {p : ℤ} {now : ℕ → Float} {call : Syscall}
  {r : Except PyException SyscallResult}

def listedIds (t : SystemTables) : Option ℤ → List String
  | some p => t.processMemory.getD p []
  | none => t.memoryRegions.keys

theorem getMemoryMap_perm (t : SystemTables) (pid : Option ℤ) :
    (t.getMemoryMap pid).Perm (((t.listedIds pid).filterMap t.memoryRegions.get?).map MemoryRegion.report) := by
  have hinfo : (t.listedIds pid).filterMap t.getMemoryInfo =
      ((t.listedIds pid).filterMap t.memoryRegions.get?).map MemoryRegion.report := by
    rw [List.map_filterMap]
    rfl
  rw [← hinfo]
  cases pid <;> exact List.mergeSort_perm _ _

theorem mem_getMemoryMap {pid : Option ℤ} {row : RegionReport} : row ∈ t.getMemoryMap pid ↔
    ∃ id region, id ∈ t.listedIds pid ∧ t.memoryRegions.get? id = some region ∧ region.report = row := by
  rw [(t.getMemoryMap_perm pid).mem_iff, List.mem_map]
  constructor
  · rintro ⟨region, hregion, hrow⟩
    obtain ⟨id, hid, hr⟩ := List.mem_filterMap.mp hregion
    exact ⟨id, region, hid, hr, hrow⟩
  · rintro ⟨id, region, hid, hr, hrow⟩
    exact ⟨region, List.mem_filterMap.mpr ⟨id, hid, hr⟩, hrow⟩

theorem Apart.keepsAccount (h : t.Apart) (hmap : call.number ≠ 12) : KeepsAccount t p call := by
  rintro -
  cases call with
  | memoryMap => exact absurd rfl hmap
  | memoryFree regionId =>
    rintro id region - hr rfl
    exact h.complete id region hr
  | _ => trivial

theorem Apart.runScheduler (h : t.Apart) (time : Float) : (t.runScheduler time).Apart := by
  constructor
  · intro q hq
    rw [runScheduler_mem] at hq
    rw [regionTable_runScheduler]
    exact h.housed q hq
  · rw [regionTable_runScheduler]
    exact h.complete
  · intro q
    rw [Laid, regionTable_runScheduler]
    exact h.laid q

theorem MemoryKept.accountsExact_runScheduler (hk : t.MemoryKept uuid4) (h : t.AccountsExact) (time : Float) :
    (t.runScheduler time).AccountsExact := by
  rw [hk.accountsExact_iff] at h
  rw [(hk.runScheduler time).accountsExact_iff, regionTable_runScheduler]
  intro q n h₀ h₁ hn
  rw [usage_runScheduler] at hn
  exact h q n h₀ h₁ hn

theorem contents_map_report (t : SystemTables) (p : ℤ) :
    (t.regionTable.contents p).map MemoryRegion.report = (t.processMemory.getD p []).filterMap t.getMemoryInfo := by
  rw [OwnedStore.contents, List.map_filterMap]
  rfl

theorem Laid.getMemoryMap_eq (h : t.Laid p) :
    t.getMemoryMap (some p) = (t.processMemory.getD p []).filterMap t.getMemoryInfo := by
  obtain ⟨hi, h⟩ := h
  apply List.mergeSort_of_pairwise
  rw [← contents_map_report, List.pairwise_map]
  apply h.increasing.imp
  intro a b hab
  exact decide_eq_true hab.le

theorem Apart.memoryMapLaid (h : t.Apart) (hk : t.MemoryKept uuid4) (ha : t.AccountsExact) : t.MemoryMapLaid := by
  constructor
  case inOrder =>
    intro p
    exact (h.laid p).getMemoryMap_eq
  case apart =>
    intro p
    obtain ⟨hi, hlaid⟩ := h.laid p
    rw [(h.laid p).getMemoryMap_eq, ← contents_map_report, List.pairwise_map]
    exact hlaid.ordered
  case complete =>
    intro row hrow
    obtain ⟨id, region, -, hr, rfl⟩ := mem_getMemoryMap.mp hrow
    exact mem_getMemoryMap.mpr ⟨id, region, h.complete id region hr, hr, rfl⟩
  case usage =>
    intro p report hp hreport
    obtain ⟨process, hprocess, rfl⟩ := Option.map_eq_some_iff.mp hreport
    rw [(h.laid p).getMemoryMap_eq, ← contents_map_report, List.map_map]
    change process.memoryUsage = _
    rw [(ha p process hp hprocess).1, listedSize]
    symm
    apply congrArg List.sum
    apply Dict.map_filterMap_get?
    intro id hid
    obtain ⟨region, hr, -⟩ := hk.sound.owned p id hid
    refine ⟨region, hr, ?_⟩
    change region.size = ((t.regionTable.items id).map (·.size)).getD 0
    rw [hr]
    rfl

end SystemTables

namespace CoreSystem

variable {uuid4 : ℕ → String}

theorem memory_map_laid (hu : UuidFresh uuid4) (now : ℕ → Float) {es : List Event}
    (hes : ∀ e ∈ es, ∀ p, ¬ e.Calls p 12) :
    Run.Always (next uuid4) (fun s => s.tables.MemoryMapLaid) (initializeSystem now) es := by
  have hguarded : Run.Guarded (next uuid4) (Allows fun _ _ call => call.number ≠ 12) (initializeSystem now) es := by
    apply Run.guarded_of_forall
    rintro (⟨p, n, args, timing⟩ | time) he s
    · intro call hbound hnumber
      exact hes _ he p ⟨rfl, (boundCall_number hbound).symm.trans hnumber⟩
    · trivial
  have hkept := hguarded.always (J := fun s => s.tables.MemoryKept uuid4 ∧ s.tables.Apart ∧ s.tables.AccountsExact) ?_
    ⟨initializeSystem_memoryKept now, initializeSystem_apart now, initializeSystem_accountsExact now⟩
  · intro pre hpre
    obtain ⟨hk, hapart, haccounts⟩ := hkept pre hpre
    exact hapart.memoryMapLaid hk haccounts
  · apply allowed_step (P := fun t => t.MemoryKept uuid4 ∧ t.Apart ∧ t.AccountsExact)
    · rintro t p time call t' r ⟨hk, hapart, haccounts⟩ hok he
      exact ⟨hk.effect hu he, he.apart hu hk hok hapart,
        he.accountsExact hu hk haccounts (hapart.keepsAccount hok)⟩
    · rintro t time ⟨hk, hapart, haccounts⟩
      exact ⟨hk.runScheduler time, hapart.runScheduler time, hk.accountsExact_runScheduler haccounts time⟩

theorem memory_map_laid_init : Run.Always (next Sample.uuid4) (fun s => s.tables.MemoryMapLaid)
    (initializeSystem Sample.timing.now) allocations := by
  apply memory_map_laid Sample.uuid4_fresh
  simp [allocations, Sample.call, Event.Calls]

end CoreSystem

end TrinityOS
