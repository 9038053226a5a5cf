import TrinityOS.Orphans
import TrinityOS.ParentTree

namespace TrinityOS

namespace SystemTables

def parents (t : SystemTables) (p : ℤ) : Option ℤ := (t.processes.get? p).map (·.parentId)

structure RootedAtKernel (t : SystemTables) : Prop where
  parent_mem : ∀ p process, t.processes.get? p = some process → process.parentId ∈ t.processes
  reaches_kernel : ∀ p ∈ t.processes, Relation.ReflTransGen (Ascends t.parents) p 0
  own_parent : ∀ p process, t.processes.get? p = some process → (process.parentId = p ↔ p = 0)

variable {t : SystemTables} {p q : ℤ}

theorem parents_eq_some : t.parents p = some q ↔
    ∃ process, t.processes.get? p = some process ∧ process.parentId = q := Option.map_eq_some_iff

theorem parents_isSome : (t.parents p).isSome ↔ p ∈ t.processes := by
  rw [parents, Option.isSome_map, Dict.mem_def]

theorem parents_of_not_mem (h : p ∉ t.processes) : t.parents p = none := by
  rw [parents, Dict.not_mem_iff.mp h, Option.map_none]

theorem rootedAtKernel_of_rooted (h : Rooted 0 t.parents) : t.RootedAtKernel := by
  constructor
  · intro p process hp
    exact parents_isSome.mp (h.parent_mem (parents_eq_some.mpr ⟨process, hp, rfl⟩))
  · intro p hp
    exact h.reaches p (parents_isSome.mpr hp)
  · intro p process hp
    have hparent : t.parents p = some process.parentId := parents_eq_some.mpr ⟨process, hp, rfl⟩
    constructor
    · intro hself
      rw [hself] at hparent
      exact h.own_parent hparent
    · rintro rfl
      exact Option.some.inj (hparent.symm.trans h.root_parent)

theorem RootedAtKernel.rooted (h : t.RootedAtKernel) (h0 : 0 ∈ t.processes) : Rooted 0 t.parents := by
  constructor
  · obtain ⟨process, hp⟩ := Dict.mem_iff.mp h0
    exact parents_eq_some.mpr ⟨process, hp, (h.own_parent 0 process hp).mpr rfl⟩
  · intro p hp
    exact h.reaches_kernel p (parents_isSome.mp hp)

theorem parents_admitProcess {newProcess : ProcessInfo} {now : ℕ → Float} :
    (t.admitProcess newProcess now).parents =
      Function.update t.parents newProcess.processId (some newProcess.parentId) := by
  funext q
  by_cases hq : q = newProcess.processId <;> simp [parents, hq]

theorem parents_runScheduler (time : Float) : (t.runScheduler time).parents = t.parents := by
  funext q
  rcases runScheduler_get? t q time with h | ⟨process, -, hq, h⟩
  · rw [parents, h, parents]
  · rw [parents, h, parents, hq]
    rfl

end SystemTables

open SystemTables

variable {uuid4 : ℕ → String} {t t' : SystemTables} {p : ℤ} {now : ℕ → Float} {call : Syscall}
  {r : Except PyException SyscallResult}

theorem Effect.parents (h : Effect uuid4 t p now call t' r) (hfresh : t.nextPid ∉ t.processes) :
    t'.parents = t.parents ∨
      (∃ name priority policy, call = .processCreate name priority policy ∧ CreateAccepted name priority policy) ∧
        t'.parents = Function.update t.parents t.nextPid (some p) := by
  by_cases hcreated : t.nextPid ∈ t'.processes
  · right
    cases h with
    | created priority' policy' hname hpriority hpolicy =>
      exact ⟨⟨_, _, _, rfl, hname, ⟨priority', hpriority⟩, policy', hpolicy⟩, parents_admitProcess⟩
    | _ => exact absurd hcreated (by simpa using hfresh)
  · left
    funext q
    by_cases hq : q = t.nextPid
    · rw [hq, parents_of_not_mem hcreated, parents_of_not_mem hfresh]
    · exact h.map_get? (fun _ _ _ _ => rfl) hq

def CreatedByProcess (t : SystemTables) (p : ℤ) (call : Syscall) : Prop :=
  ∀ name priority policy, call = .processCreate name priority policy → CreateAccepted name priority policy →
    p ∈ t.processes

theorem Effect.rooted (h : Effect uuid4 t p now call t' r) (hfresh : t.nextPid ∉ t.processes)
    (hok : CreatedByProcess t p call) (hrooted : Rooted 0 t.parents) : Rooted 0 t'.parents := by
  rcases h.parents hfresh with hsame | ⟨⟨name, priority, policy, hcall, haccepted⟩, hnew⟩
  · rwa [hsame]
  · rw [hnew]
    apply hrooted.insert (parents_of_not_mem hfresh)
    exact parents_isSome.mpr (hok name priority policy hcall haccepted)

theorem initializeSystem_rooted (now : ℕ → Float) :
    Rooted 0 (CoreSystem.initializeSystem now).tables.parents := by
  have hparents (q : ℤ) : (CoreSystem.initializeSystem now).tables.parents q =
      if q = 1 ∨ q = 0 then some 0 else none := by
    simp only [parents, CoreSystem.initializeSystem, CoreSystem.initMemory, registerRegion_processes,
      CoreSystem.registerSyscalls, Dict.get?_set]
    by_cases h1 : q = 1
    · simp [h1]
    · by_cases h0 : q = 0 <;> simp [h1, h0]
  constructor
  · rw [hparents, if_pos (.inr rfl)]
  · intro q hq
    rw [hparents] at hq
    apply Relation.ReflTransGen.single
    rw [Ascends, hparents]
    split_ifs at hq ⊢
    · rfl
    · simp at hq

namespace CoreSystem

theorem rootedAtKernel_always_iff (uuid4 : ℕ → String) (now : ℕ → Float) (es : List Event) :
    Run.Always (next uuid4) (fun s => s.tables.RootedAtKernel) (initializeSystem now) es ↔
      Run.Guarded (next uuid4) (Allows CreatedByProcess) (initializeSystem now) es := by
  apply always_iff_allows (J := fun t => t.PidsBelow ∧ Rooted 0 t.parents)
  · rintro t ⟨-, hrooted⟩
    exact rootedAtKernel_of_rooted hrooted
  · rintro t p now call t' r ⟨hb, hrooted⟩ hok he
    exact ⟨he.pidsBelow hb, he.rooted hb.fresh hok hrooted⟩
  · rintro t time ⟨hb, hrooted⟩
    rw [parents_runScheduler]
    exact ⟨runScheduler_pidsBelow hb time, hrooted⟩
  · rintro t p now call ⟨hb, hrooted⟩ hP name priority policy rfl haccepted
    obtain ⟨priority', policy', hcreate⟩ := @processCreate_of_accepted t p now _ _ _ haccepted
    rw [performSyscall, hcreate] at hP
    have h0 : 0 ∈ t.processes := parents_isSome.mp (by simp [hrooted.root_parent])
    have hnew := hP.rooted ((admitProcess_mem _ _ _ _).mpr (.inr h0))
    rw [parents_admitProcess] at hnew
    exact parents_isSome.mp ((hrooted.insert_iff (parents_of_not_mem hb.fresh)).mp hnew)
  · exact ⟨initializeSystem_pidsBelow now, initializeSystem_rooted now⟩

def strayCreation : List Event :=
  [Sample.call 1000 1 [("name", .str "worker"), ("policy", .int 1)]]

theorem stray_creation_unrooted : ¬ Run.Always (next Sample.uuid4) (fun s => s.tables.RootedAtKernel)
    (initializeSystem Sample.timing.now) strayCreation := by
  intro h
  have hparent : ((Sample.run strayCreation).tables.processes.get? 1000).map (·.parentId) = some 1000 := by
    decide
  obtain ⟨process, hp, hself⟩ := Option.map_eq_some_iff.mp hparent
  exact absurd ((h.last.own_parent 1000 process hp).mp hself) (by decide)

end CoreSystem

end TrinityOS
