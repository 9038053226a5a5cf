import TrinityOS.EffectFrames
import TrinityOS.OwnedStore
import TrinityOS.SchedulerConsistency
import Mathlib

namespace TrinityOS

open SystemTables
open OwnedStore (Sound Complete)

/-- What the code relies on in `str(uuid.uuid4())`: the texts drawn are pairwise different, and
none contains an underscore. -/
structure UuidFresh (uuid4 : ℕ → String) : Prop where
  injective : Function.Injective uuid4
  no_underscore : ∀ n, '_' ∉ (uuid4 n).toList

theorem Sample.uuid4_injective : Function.Injective Sample.uuid4 := by
  intro m n h
  have happend : "00000000-0000-4000-8000-00000000000" ++ toString m =
      "00000000-0000-4000-8000-00000000000" ++ toString n := h
  have hdigits := (String.append_right_inj _).mp happend
  rw [Nat.toString_eq_repr, Nat.toString_eq_repr] at hdigits
  exact Nat.repr_injective hdigits

theorem Sample.uuid4_no_underscore (n : ℕ) : '_' ∉ (Sample.uuid4 n).toList := by
  have hsplit : (Sample.uuid4 n).toList =
      "00000000-0000-4000-8000-00000000000".toList ++ (toString n).toList := String.toList_append
  rw [hsplit, List.mem_append]
  rintro (h | h)
  · exact absurd h (by decide)
  · rw [Nat.toString_eq_repr, Nat.toList_repr] at h
    have hdigit := Nat.isDigit_of_mem_toDigits (by omega) (by omega) h
    exact absurd hdigit (by decide)

theorem Sample.uuid4_fresh : UuidFresh Sample.uuid4 := ⟨Sample.uuid4_injective, Sample.uuid4_no_underscore⟩

namespace SystemTables

def segmentIds (pid : ℤ) : List String := [s!"{pid}_code", s!"{pid}_data", s!"{pid}_stack"]

theorem initialRegions_ids (pid : ℤ) (now : ℕ → Float) :
    (initialRegions pid now).map (·.id) = segmentIds pid := rfl

def stem (id : String) : List Char := id.toList.takeWhile (· ≠ '_')

theorem stem_append (pid : ℤ) (suffix : List Char) :
    (((toString pid).toList ++ '_' :: suffix).takeWhile (· ≠ '_')) = (toString pid).toList := by
  rw [List.takeWhile_append_of_pos]
  · simp
  · intro c hc
    rcases mem_toString_int hc with hd | rfl
    · have hne : c ≠ '_' := by
        rintro rfl
        exact absurd hd (by decide)
      simpa using hne
    · decide

theorem stem_of_mem_segmentIds {pid : ℤ} {id : String} (h : id ∈ segmentIds pid) :
    stem id = (toString pid).toList := by
  simp only [segmentIds, List.mem_cons, List.not_mem_nil, or_false] at h
  rcases h with rfl | rfl | rfl
  all_goals
    rw [stem, String.toList_append]
    exact stem_append pid _

theorem underscore_mem_segmentIds {pid : ℤ} {id : String} (h : id ∈ segmentIds pid) : '_' ∈ id.toList := by
  simp only [segmentIds, List.mem_cons, List.not_mem_nil, or_false] at h
  rcases h with rfl | rfl | rfl
  all_goals
    rw [String.toList_append]
    exact List.mem_append_right _ (List.mem_cons_self)

theorem segmentIds_nodup (pid : ℤ) : (segmentIds pid).Nodup := by
  change [toString pid ++ "_code", toString pid ++ "_data", toString pid ++ "_stack"].Nodup
  simp

theorem segmentIds_disjoint {p q : ℤ} {id : String} (hp : id ∈ segmentIds p) (hq : id ∈ segmentIds q) :
    p = q := by
  have h := (stem_of_mem_segmentIds hp).symm.trans (stem_of_mem_segmentIds hq)
  have hs := String.toList_inj.mp h
  rw [Int.toString_eq_repr, Int.toString_eq_repr] at hs
  exact Int.repr_injective hs

theorem system_not_mem_segmentIds {pid : ℤ} {id : String} (h : id ∈ ["kernel_main", "system_shared"]) :
    id ∉ segmentIds pid := by
  intro hm
  have hstem := stem_of_mem_segmentIds hm
  have hletter : ∃ c ∈ stem id, ¬ (c.isDigit ∨ c = '-') := by
    simp only [List.mem_cons, List.not_mem_nil, or_false] at h
    rcases h with rfl | rfl
    · exact ⟨'k', by decide, by decide⟩
    · exact ⟨'s', by decide, by decide⟩
  obtain ⟨c, hc, hletter⟩ := hletter
  rw [hstem] at hc
  exact hletter (mem_toString_int hc)

structure RegionsNamed (uuid4 : ℕ → String) (t : SystemTables) : Prop where
  id_eq : ∀ id region, t.memoryRegions.get? id = some region → region.id = id
  size_pos : ∀ id region, t.memoryRegions.get? id = some region → 0 < region.size
  known : ∀ id ∈ t.memoryRegions, (∃ n < t.uuidCount, id = uuid4 n) ∨ id ∈ ["kernel_main", "system_shared"] ∨
    ∃ pid < t.nextPid, id ∈ segmentIds pid

def regionTable (t : SystemTables) : OwnedStore String ℤ MemoryRegion where
  items := t.memoryRegions.get?
  held pid := t.processMemory.getD pid []

variable {uuid4 : ℕ → String} {t t' : SystemTables} {p : ℤ}

def KnownId (uuid4 : ℕ → String) (t : SystemTables) (id : String) : Prop :=
  (∃ n < t.uuidCount, id = uuid4 n) ∨ id ∈ ["kernel_main", "system_shared"] ∨
    ∃ pid < t.nextPid, id ∈ segmentIds pid

theorem KnownId.ne_uuid {id : String} (h : t.KnownId uuid4 id) (hu : UuidFresh uuid4) :
    id ≠ uuid4 t.uuidCount := by
  rintro rfl
  rcases h with ⟨n, hn, he⟩ | hs | ⟨pid, -, hs⟩
  · have := hu.injective he
    omega
  · apply hu.no_underscore t.uuidCount
    simp only [List.mem_cons, List.not_mem_nil, or_false] at hs
    rcases hs with hs | hs <;> rw [hs] <;> decide
  · exact hu.no_underscore _ (underscore_mem_segmentIds hs)

theorem KnownId.not_mem_segmentIds {id : String} (h : t.KnownId uuid4 id) (hu : UuidFresh uuid4) :
    id ∉ segmentIds t.nextPid := by
  intro hid
  rcases h with ⟨n, -, rfl⟩ | hs | ⟨pid, hpid, hs⟩
  · exact hu.no_underscore n (underscore_mem_segmentIds hid)
  · exact system_not_mem_segmentIds hs hid
  · have := segmentIds_disjoint hs hid
    omega

theorem KnownId.mono {id : String} (h : t.KnownId uuid4 id) (hpid : t.nextPid ≤ t'.nextPid)
    (huuid : t.uuidCount ≤ t'.uuidCount) : t'.KnownId uuid4 id := by
  rcases h with ⟨n, hn, he⟩ | hs | ⟨pid, hlt, hs⟩
  · exact .inl ⟨n, by omega, he⟩
  · exact .inr (.inl hs)
  · exact .inr (.inr ⟨pid, by omega, hs⟩)

theorem RegionsNamed.uuid_fresh (h : t.RegionsNamed uuid4) (hu : UuidFresh uuid4) :
    t.memoryRegions.get? (uuid4 t.uuidCount) = none := by
  rw [← Dict.not_mem_iff]
  intro hm
  have hknown : t.KnownId uuid4 (uuid4 t.uuidCount) := h.known _ hm
  exact hknown.ne_uuid hu rfl

theorem RegionsNamed.segments_fresh (h : t.RegionsNamed uuid4) (hu : UuidFresh uuid4) {id : String}
    (hid : id ∈ segmentIds t.nextPid) : t.memoryRegions.get? id = none := by
  rw [← Dict.not_mem_iff]
  intro hm
  have hknown : t.KnownId uuid4 id := h.known id hm
  exact hknown.not_mem_segmentIds hu hid

theorem RegionsNamed.mono (h : t.RegionsNamed uuid4)
    (hget : ∀ id region, t'.memoryRegions.get? id = some region → t.memoryRegions.get? id = some region)
    (hpid : t.nextPid ≤ t'.nextPid) (huuid : t.uuidCount ≤ t'.uuidCount) : t'.RegionsNamed uuid4 where
  id_eq id region hr := h.id_eq id region (hget id region hr)
  size_pos id region hr := h.size_pos id region (hget id region hr)
  known id hm := by
    obtain ⟨region, hr⟩ := Dict.mem_iff.mp hm
    have hknown : t.KnownId uuid4 id := h.known id (Dict.mem_of_get? (hget id region hr))
    exact hknown.mono hpid huuid

theorem RegionsNamed.register {region : MemoryRegion} (h : t.RegionsNamed uuid4)
    (hid : region.id = uuid4 t.uuidCount) (hsize : 0 < region.size) :
    (t.drawUuid.registerRegion p region).RegionsNamed uuid4 := by
  have hcase {id : String} {r : MemoryRegion} (hr : (t.memoryRegions.set region.id region).get? id = some r) :
      (id = region.id ∧ r = region) ∨ t.memoryRegions.get? id = some r := by
    rw [Dict.get?_set] at hr
    split_ifs at hr with he
    · exact .inl ⟨he, (Option.some.inj hr).symm⟩
    · exact .inr hr
  constructor
  · intro id r hr
    rcases hcase hr with ⟨rfl, rfl⟩ | hr
    · rfl
    · exact h.id_eq id r hr
  · intro id r hr
    rcases hcase hr with ⟨-, rfl⟩ | hr
    · exact hsize
    · exact h.size_pos id r hr
  · intro id hm
    obtain ⟨r, hr⟩ := Dict.mem_iff.mp hm
    have hcount : (t.drawUuid.registerRegion p region).uuidCount = t.uuidCount + 1 := rfl
    have hpid : (t.drawUuid.registerRegion p region).nextPid = t.nextPid := rfl
    rw [hcount, hpid]
    rcases hcase hr with ⟨rfl, -⟩ | hr
    · exact .inl ⟨t.uuidCount, by omega, hid⟩
    · rcases h.known id (Dict.mem_of_get? hr) with ⟨n, hn, he⟩ | hrest
      · exact .inl ⟨n, by omega, he⟩
      · exact .inr hrest

section views

variable (t p)

theorem regionTable_addMemoryUsage (size : ℤ) : (t.addMemoryUsage p size).regionTable = t.regionTable := rfl

theorem regionTable_wakeTarget : (t.wakeTarget p).regionTable = t.regionTable := by
  rw [regionTable, wakeTarget_memoryRegions, wakeTarget_processMemory, regionTable]

theorem regionTable_runScheduler (time : Float) : (t.runScheduler time).regionTable = t.regionTable := by
  rw [regionTable, runScheduler_memoryRegions, runScheduler_processMemory, regionTable]

theorem regionTable_registerRegion (region : MemoryRegion) :
    (t.registerRegion p region).regionTable = t.regionTable.acquire p region.id region := by
  rw [regionTable, registerRegion_memoryRegions, registerRegion_processMemory, Dict.get?_set_eq_update,
    Dict.getD_set_eq_update]
  rfl

theorem regionTable_deleteRegion (region : MemoryRegion) (id : String) :
    (t.deleteRegion p region id).regionTable = t.regionTable.release p id := by
  have hheld : ((t.processMemory.modify p (fun ids => ids.erase id)).getD · []) =
      Function.update (t.processMemory.getD · []) p ((t.processMemory.getD p []).erase id) := by
    funext q
    rw [Dict.getD, Dict.get?_modify, Function.update_apply]
    split_ifs
    · -- a process without a list has nothing to erase
      cases hp : t.processMemory.get? p <;> simp [Dict.getD, hp]
    · rfl
  rw [regionTable, deleteRegion_memoryRegions, deleteRegion_processMemory, Dict.get?_del_eq_update, hheld]
  rfl

theorem regionTable_terminateProcess (exitCode : PyValue) :
    (t.terminateProcess p exitCode).regionTable = t.regionTable.dispose p := by
  have hitems : (t.memoryRegions.delAll (t.processMemory.getD p [])).get? =
      fun id => if id ∈ t.processMemory.getD p [] then none else t.memoryRegions.get? id := by
    funext id
    rw [Dict.get?_delAll]
  have hheld : (fun q => (t.terminateProcess p exitCode).processMemory.getD q []) =
      Function.update (fun q => t.processMemory.getD q []) p [] := by
    funext q
    rw [Dict.getD, terminateProcess_processMemory_get?, Function.update_apply]
    split_ifs <;> rfl
  rw [regionTable, terminateProcess_memoryRegions, hitems, hheld]
  rfl

def initialItems (pid : ℤ) (now : ℕ → Float) : List (String × MemoryRegion) :=
  (initialRegions pid now).map fun region => (region.id, region)

theorem foldl_set_get? (regions : List MemoryRegion) (d : Dict String MemoryRegion) :
    (regions.foldl (fun d region => d.set region.id region) d).get? =
      (regions.map fun region => (region.id, region)).foldl
        (fun (items : String → Option MemoryRegion) kx => Function.update items kx.1 (some kx.2)) d.get? := by
  induction regions generalizing d with
  | nil => rfl
  | cons region regions ih =>
    rw [List.foldl_cons, ih, List.map_cons, List.foldl_cons, Dict.get?_set_eq_update]

theorem initialItems_keys (pid : ℤ) (now : ℕ → Float) :
    (initialItems pid now).map Prod.fst = segmentIds pid := by
  rw [← initialRegions_ids pid now, initialItems, List.map_map]
  rfl

theorem regionTable_admitProcess (newProcess : ProcessInfo) (now : ℕ → Float) :
    (t.admitProcess newProcess now).regionTable =
      t.regionTable.install newProcess.processId (initialItems newProcess.processId now) := by
  rw [regionTable, admitProcess_memoryRegions, admitProcess_processMemory, foldl_set_get?,
    Dict.getD_set_eq_update, initialRegions_ids, ← initialItems_keys newProcess.processId now]
  rfl

end views

section admitProcess

variable {newProcess : ProcessInfo} {now : ℕ → Float}

theorem initialRegions_spec {pid : ℤ} {region : MemoryRegion} (h : region ∈ initialRegions pid now) :
    region.ownerPid = pid ∧ 0 < region.size ∧ region.id ∈ segmentIds pid := by
  have hid : region.id ∈ segmentIds pid := by
    rw [← initialRegions_ids pid now]
    exact List.mem_map_of_mem h
  simp only [initialRegions, List.mem_cons, List.not_mem_nil, or_false] at h
  rcases h with rfl | rfl | rfl
  all_goals exact ⟨rfl, by norm_num, hid⟩

theorem initialItems_spec {pid : ℤ} {kx : String × MemoryRegion} (h : kx ∈ initialItems pid now) :
    kx.2 ∈ initialRegions pid now ∧ kx.1 = kx.2.id := by
  obtain ⟨region, hr, rfl⟩ := List.mem_map.mp h
  exact ⟨hr, rfl⟩

theorem initialItems_nodup (pid : ℤ) (now : ℕ → Float) : ((initialItems pid now).map Prod.fst).Nodup := by
  rw [initialItems_keys]
  exact segmentIds_nodup pid

theorem admitProcess_memoryRegions_get? {id : String} {region : MemoryRegion}
    (h : (t.admitProcess newProcess now).memoryRegions.get? id = some region) :
    (region ∈ initialRegions newProcess.processId now ∧ region.id = id) ∨
      t.memoryRegions.get? id = some region := by
  have hview : (t.admitProcess newProcess now).memoryRegions.get? id =
      (t.regionTable.install newProcess.processId (initialItems newProcess.processId now)).items id :=
    congrArg (fun s => OwnedStore.items s id) (regionTable_admitProcess t newProcess now)
  rw [hview] at h
  by_cases hid : id ∈ (initialItems newProcess.processId now).map Prod.fst
  · obtain ⟨kx, hkx, rfl⟩ := List.mem_map.mp hid
    rw [OwnedStore.install_items_of_mem (initialItems_nodup _ now) hkx] at h
    obtain rfl := Option.some.inj h
    obtain ⟨hr, he⟩ := initialItems_spec hkx
    exact .inl ⟨hr, he.symm⟩
  · rw [OwnedStore.install_items_of_not_mem hid] at h
    exact .inr h

theorem RegionsNamed.admitProcess (h : t.RegionsNamed uuid4) (hpid : newProcess.processId = t.nextPid) :
    ({ t with nextPid := t.nextPid + 1 }.admitProcess newProcess now).RegionsNamed uuid4 := by
  constructor
  · intro id region hr
    rcases admitProcess_memoryRegions_get? hr with ⟨-, he⟩ | hr
    · exact he
    · exact h.id_eq id region hr
  · intro id region hr
    rcases admitProcess_memoryRegions_get? hr with ⟨hm, -⟩ | hr
    · exact (initialRegions_spec hm).2.1
    · exact h.size_pos id region hr
  · intro id hm
    obtain ⟨region, hr⟩ := Dict.mem_iff.mp hm
    rw [admitProcess_nextPid, admitProcess_uuidCount]
    rcases admitProcess_memoryRegions_get? hr with ⟨hm, he⟩ | hr
    · have hid := (initialRegions_spec hm).2.2
      rw [he] at hid
      exact .inr (.inr ⟨newProcess.processId, by change _ < t.nextPid + 1; omega, hid⟩)
    · rcases h.known id (Dict.mem_of_get? hr) with hn | hs | ⟨pid, hlt, hs⟩
      · exact .inl hn
      · exact .inr (.inl hs)
      · exact .inr (.inr ⟨pid, by change _ < t.nextPid + 1; omega, hs⟩)

end admitProcess

theorem terminateProcess_memoryRegions_of_get? {exitCode : PyValue} {id : String} {region : MemoryRegion}
    (h : (t.terminateProcess p exitCode).memoryRegions.get? id = some region) :
    t.memoryRegions.get? id = some region := by
  rw [terminateProcess_memoryRegions, Dict.get?_delAll] at h
  split_ifs at h
  exact h

end SystemTables

section effects

variable {uuid4 : ℕ → String} {t t' : SystemTables} {p : ℤ} {now : ℕ → Float} {call : Syscall}
  {r : Except PyException SyscallResult}

theorem Effect.uuidCount_le (h : Effect uuid4 t p now call t' r) : t.uuidCount ≤ t'.uuidCount := by
  cases h with
  | refused n u _ hu => exact hu
  | _ => simp

theorem Effect.regionsNamed (h : Effect uuid4 t p now call t' r) (hn : t.RegionsNamed uuid4) :
    t'.RegionsNamed uuid4 := by
  have hpid := h.nextPid_le
  have huuid := h.uuidCount_le
  cases h with
  | created => exact hn.admitProcess rfl
  | exited => exact hn.mono (fun _ _ hr => terminateProcess_memoryRegions_of_get? hr) hpid huuid
  | allocated n start permissions _ _ hpos =>
    have hregister : (t.drawUuid.registerRegion p
        (allocatedRegion (uuid4 t.uuidCount) start n.val p permissions (now 0))).RegionsNamed uuid4 :=
      hn.register rfl hpos
    exact hregister.mono (fun _ _ h => h) (Int.le_refl _) (Nat.le_refl _)
  | freed id =>
    apply hn.mono _ hpid huuid
    intro j region hr
    rw [deleteRegion_memoryRegions, Dict.get?_del] at hr
    split_ifs at hr
    exact hr
  | mapped targetId targetRegion _ _ htarget => exact hn.register rfl (hn.size_pos targetId targetRegion htarget)
  | sent => exact hn.mono (fun _ _ h => by simpa using h) hpid huuid
  | _ => exact hn.mono (fun _ _ h => h) hpid huuid

def Syscall.holder (t : SystemTables) (p : ℤ) : Syscall → ℤ
  | .processCreate _ _ _ => t.nextPid
  | _ => p

theorem Syscall.holder_ne {q : ℤ} (hp : q ≠ p) (hnew : q ≠ t.nextPid) : q ≠ call.holder t p := by
  cases call with
  | processCreate => exact hnew
  | _ => exact hp

theorem Effect.regionTable_step (h : Effect uuid4 t p now call t' r) (hu : UuidFresh uuid4)
    (hn : t.RegionsNamed uuid4) :
    OwnedStore.Step MemoryRegion.ownerPid t.regionTable (call.holder t p) t'.regionTable := by
  cases h with
  | created =>
    rw [regionTable_admitProcess]
    apply OwnedStore.Step.install
    · exact initialItems_nodup t.nextPid _
    · intro kx hkx
      exact hn.segments_fresh hu (List.mem_map_of_mem hkx)
    · intro kx hkx
      exact (initialRegions_spec (initialItems_spec hkx).1).1
  | exited =>
    rw [regionTable_terminateProcess]
    exact .dispose
  | allocated =>
    rw [regionTable_addMemoryUsage, regionTable_registerRegion]
    exact .acquire _ _ (hn.uuid_fresh hu) rfl
  | freed id region hregion howner =>
    rw [regionTable_deleteRegion]
    exact .release id region hregion howner
  | mapped =>
    rw [regionTable_registerRegion]
    exact .acquire _ _ (hn.uuid_fresh hu) rfl
  | sent =>
    rw [regionTable_wakeTarget]
    exact .stay
  | _ => exact .stay

end effects

end TrinityOS
