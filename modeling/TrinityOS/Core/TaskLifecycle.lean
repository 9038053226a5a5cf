import TrinityOS.Core.ReadyQueue

namespace TrinityOS.Core

variable {τ : Type}

inductive Life (τ : Type) where
  | unborn
  | queued (task : Option τ)
  | selected (task : Option τ)
  | executing (task : Option τ)
  | ended (task : Option τ)

inductive StateMove : Option ProcessState → Option ProcessState → Prop
  | stay (state) : StateMove state state
  | added : StateMove none (some .ready)
  | taken : StateMove (some .ready) (some .running)
  | terminated : StateMove (some .running) (some .terminated)

namespace Life

def status : Life τ → Option ProcessState
  | unborn => none
  | queued _ => some .ready
  | selected _ => some .running
  | executing _ => some .running
  | ended _ => some .terminated

def task : Life τ → Option τ
  | unborn => none
  | queued task => task
  | selected task => task
  | executing task => task
  | ended task => task

def invoked : Life τ → List τ
  | executing task => task.toList
  | ended task => task.toList
  | _ => []

inductive Step : Life τ → Life τ → Prop
  | stay (stage) : Step stage stage
  | add (task) : Step unborn (queued task)
  | take (task) : Step (queued task) (selected task)
  | invoke (task) : Step (selected task) (executing task)
  | finish (task) : Step (executing task) (ended task)

theorem Step.status {a b : Life τ} (h : Step a b) : StateMove a.status b.status := by
  cases h with
  | stay => exact .stay _
  | add => exact .added
  | take => exact .taken
  | invoke => exact .stay _
  | finish => exact .terminated

theorem invoked_length_le (stage : Life τ) : stage.invoked.length ≤ 1 := by
  cases stage with
  | executing task => cases task <;> simp [invoked]
  | ended task => cases task <;> simp [invoked]
  | _ => simp [invoked]

end Life

structure Lives (es : List (Event τ)) (s : CoreSystem τ) (life : ℤ → Life τ) : Prop where
  states : ∀ pid, s.processStates.get? pid = (life pid).status
  queued : ∀ pid task, life pid = .queued task ↔ ∃ proc ∈ s.readyQueue, proc.pid = pid ∧ proc.task = task
  selected : ∀ pid task, life pid = .selected task ↔
    ∃ proc, s.schedulerThread = .selected proc ∧ proc.pid = pid ∧ proc.task = task
  executing : ∀ pid task, life pid = .executing task ↔
    ∃ proc, s.schedulerThread = .executing proc ∧ proc.pid = pid ∧ proc.task = task
  invoked : ∀ pid, invocations es pid = (life pid).invoked
  born : ∀ proc ∈ added es, life proc.pid ≠ .unborn ∧ (life proc.pid).task = proc.task
  fresh : ∀ pid, s.nextPid ≤ pid → life pid = .unborn

def SchedulerThread.Idle (thread : SchedulerThread τ) : Prop :=
  (∀ proc, thread ≠ .selected proc) ∧ ∀ proc, thread ≠ .executing proc

theorem SchedulerThread.idle_notJoinable : (SchedulerThread.notJoinable : SchedulerThread τ).Idle := by
  constructor <;> intro proc h <;> cases h

theorem SchedulerThread.idle_waiting : (SchedulerThread.waiting : SchedulerThread τ).Idle := by
  constructor <;> intro proc h <;> cases h

theorem SchedulerThread.idle_finished : (SchedulerThread.finished : SchedulerThread τ).Idle := by
  constructor <;> intro proc h <;> cases h

variable {es new : List (Event τ)} {s s' : CoreSystem τ} {life : ℤ → Life τ} {proc : Process τ}

theorem invocations_append (pid : ℤ) :
    invocations (es ++ new) pid = invocations es pid ++ invocations new pid := List.filterMap_append

namespace Lives

theorem of_idle (h : Lives es s life) (hqueue : s'.readyQueue = s.readyQueue)
    (hstates : s'.processStates = s.processStates) (hpid : s'.nextPid = s.nextPid) (hidle : s.schedulerThread.Idle)
    (hidle' : s'.schedulerThread.Idle) (hadded : added new = []) (hinvoked : ∀ pid, invocations new pid = []) :
    Lives (es ++ new) s' life := by
  constructor
  · rw [hstates]
    exact h.states
  · rw [hqueue]
    exact h.queued
  · intro pid task
    rw [h.selected pid task]
    constructor
    · rintro ⟨proc, hthread, -⟩
      exact absurd hthread (hidle.1 proc)
    · rintro ⟨proc, hthread, -⟩
      exact absurd hthread (hidle'.1 proc)
  · intro pid task
    rw [h.executing pid task]
    constructor
    · rintro ⟨proc, hthread, -⟩
      exact absurd hthread (hidle.2 proc)
    · rintro ⟨proc, hthread, -⟩
      exact absurd hthread (hidle'.2 proc)
  · intro pid
    rw [invocations_append, hinvoked, List.append_nil, h.invoked pid]
  · rw [added_append, hadded, List.append_nil]
    exact h.born
  · rw [hpid]
    exact h.fresh

theorem update {q : ℤ} {stage : Life τ} (h : Lives es s life) (hpid : s.nextPid ≤ s'.nextPid) (hq : q < s'.nextPid)
    (hborn : stage ≠ .unborn) (hnew : ∀ proc ∈ added new, proc.pid = q)
    (htask : ∀ proc ∈ added (es ++ new), proc.pid = q → stage.task = proc.task)
    (hstates : ∀ pid, s'.processStates.get? pid = if pid = q then stage.status else s.processStates.get? pid)
    (hqueued : ∀ pid task, (if pid = q then stage else life pid) = .queued task ↔
      ∃ proc ∈ s'.readyQueue, proc.pid = pid ∧ proc.task = task)
    (hselected : ∀ pid task, (if pid = q then stage else life pid) = .selected task ↔
      ∃ proc, s'.schedulerThread = .selected proc ∧ proc.pid = pid ∧ proc.task = task)
    (hexecuting : ∀ pid task, (if pid = q then stage else life pid) = .executing task ↔
      ∃ proc, s'.schedulerThread = .executing proc ∧ proc.pid = pid ∧ proc.task = task)
    (hinvoked : ∀ pid, (life pid).invoked ++ invocations new pid = if pid = q then stage.invoked else (life pid).invoked) :
    Lives (es ++ new) s' (Function.update life q stage) := by
  constructor
  · intro pid
    rw [hstates, Function.update_apply]
    split_ifs
    · rfl
    · exact h.states pid
  · intro pid task
    rw [Function.update_apply]
    exact hqueued pid task
  · intro pid task
    rw [Function.update_apply]
    exact hselected pid task
  · intro pid task
    rw [Function.update_apply]
    exact hexecuting pid task
  · intro pid
    rw [invocations_append, h.invoked, hinvoked, Function.update_apply]
    split_ifs <;> rfl
  · intro proc hproc
    rw [Function.update_apply]
    by_cases heq : proc.pid = q
    · rw [if_pos heq]
      exact ⟨hborn, htask proc hproc heq⟩
    · rw [if_neg heq]
      rw [added_append] at hproc
      rcases List.mem_append.mp hproc with hproc | hproc
      · exact h.born proc hproc
      · exact absurd (hnew proc hproc) heq
  · intro pid hle
    rw [Function.update_of_ne (by omega)]
    exact h.fresh pid (by omega)

theorem add (h : Lives es s life) (task : Option τ) (priority : ℤ) (name : String) :
    Lives (es ++ [.added (s.addProcess task priority name).2]) (s.addProcess task priority name).1
      (Function.update life s.nextPid (.queued task)) := by
  have hunborn := h.fresh s.nextPid (le_refl _)
  have hperm : (s.addProcess task priority name).1.readyQueue.Perm
      ((s.addProcess task priority name).2 :: s.readyQueue) :=
    List.perm_insertIdx _ _ List.findIdx_le_length
  have hnextPid : (s.addProcess task priority name).1.nextPid = s.nextPid + 1 := rfl
  refine h.update (by omega) (by omega) (by simp) ?_ ?_ ?_ ?_ ?_ ?_ ?_
  · intro proc hproc
    obtain rfl := List.mem_singleton.mp hproc
    rfl
  · intro proc hproc hpid
    rw [added_append] at hproc
    rcases List.mem_append.mp hproc with hproc | hproc
    · exact absurd (hpid ▸ hunborn) (h.born proc hproc).1
    · obtain rfl := List.mem_singleton.mp hproc
      rfl
  · intro pid
    exact Dict.get?_set _ _ _ _
  · intro pid task'
    simp only [hperm.mem_iff, List.mem_cons, exists_eq_or_imp]
    change _ ↔ (s.nextPid = pid ∧ task = task') ∨ _
    rw [← h.queued pid task']
    by_cases hpid : pid = s.nextPid
    · subst hpid
      simp [hunborn]
    · simp [hpid, Ne.symm hpid]
  · intro pid task'
    change _ ↔ ∃ proc, s.schedulerThread = _ ∧ _
    rw [← h.selected pid task']
    by_cases hpid : pid = s.nextPid
    · subst hpid
      simp [hunborn]
    · simp [hpid]
  · intro pid task'
    change _ ↔ ∃ proc, s.schedulerThread = _ ∧ _
    rw [← h.executing pid task']
    by_cases hpid : pid = s.nextPid
    · subst hpid
      simp [hunborn]
    · simp [hpid]
  · intro pid
    change _ ++ [] = _
    rw [List.append_nil]
    by_cases hpid : pid = s.nextPid
    · rw [if_pos hpid, hpid, hunborn]
      rfl
    · rw [if_neg hpid]

theorem move {q : ℤ} {stage : Life τ} (h : Lives es s life) (hpid : s'.nextPid = s.nextPid)
    (hadded : added new = [])
    (hborn : life q ≠ .unborn) (hborn' : stage ≠ .unborn) (htask : stage.task = (life q).task)
    (hstates : ∀ pid, s'.processStates.get? pid = if pid = q then stage.status else s.processStates.get? pid)
    (hqueued : ∀ pid task, (if pid = q then stage else life pid) = .queued task ↔
      ∃ proc ∈ s'.readyQueue, proc.pid = pid ∧ proc.task = task)
    (hselected : ∀ pid task, (if pid = q then stage else life pid) = .selected task ↔
      ∃ proc, s'.schedulerThread = .selected proc ∧ proc.pid = pid ∧ proc.task = task)
    (hexecuting : ∀ pid task, (if pid = q then stage else life pid) = .executing task ↔
      ∃ proc, s'.schedulerThread = .executing proc ∧ proc.pid = pid ∧ proc.task = task)
    (hinvoked : ∀ pid, (life pid).invoked ++ invocations new pid = if pid = q then stage.invoked else (life pid).invoked) :
    Lives (es ++ new) s' (Function.update life q stage) := by
  have hlt : q < s'.nextPid := by
    rw [hpid]
    by_contra hge
    exact hborn (h.fresh q (by omega))
  refine h.update (by omega) hlt hborn' ?_ ?_ hstates hqueued hselected hexecuting hinvoked
  · rw [hadded]
    intro proc hproc
    cases hproc
  · rintro proc hproc rfl
    rw [added_append, hadded, List.append_nil] at hproc
    exact htask.trans (h.born proc hproc).2

theorem take {rest : List (Process τ)} (h : Lives es s life) (hq : Queued es s)
    (hthread : s.schedulerThread = .waiting) (hqueue : s.readyQueue = proc :: rest) :
    Lives (es ++ [.taken { proc with state := .running }])
      { s with
        readyQueue := rest
        processStates := s.processStates.set proc.pid .running
        schedulerThread := .selected { proc with state := .running } }
      (Function.update life proc.pid (.selected proc.task)) := by
  have hqueued : life proc.pid = .queued proc.task :=
    (h.queued proc.pid proc.task).mpr ⟨proc, by simp [hqueue], rfl, rfl⟩
  refine h.move rfl rfl ?_ ?_ ?_ ?_ ?_ ?_ ?_ ?_
  · simp [hqueued]
  · simp
  · rw [hqueued]
    rfl
  · intro pid
    exact Dict.get?_set _ _ _ _
  · intro pid task
    by_cases hpid : pid = proc.pid
    · rw [if_pos hpid]
      refine iff_of_false (fun heq => by cases heq) ?_
      rintro ⟨other, hother, heq, -⟩
      exact hq.ne_of_mem_rest hqueue hother (heq.trans hpid)
    · rw [if_neg hpid, h.queued pid task, hqueue]
      simp [Ne.symm hpid]
  · intro pid task
    by_cases hpid : pid = proc.pid
    · simp [hpid]
    · rw [if_neg hpid, h.selected pid task, hthread]
      simp [Ne.symm hpid]
  · intro pid task
    by_cases hpid : pid = proc.pid
    · simp [hpid]
    · rw [if_neg hpid, h.executing pid task, hthread]
      simp
  · intro pid
    change (life pid).invoked ++ [] = _
    by_cases hpid : pid = proc.pid
    · rw [if_pos hpid, hpid, hqueued]
      rfl
    · rw [if_neg hpid, List.append_nil]

theorem invoke (h : Lives es s life) (hthread : s.schedulerThread = .selected proc) :
    Lives (es ++ (proc.task.map (.invoked proc.pid)).toList) { s with schedulerThread := .executing proc }
      (Function.update life proc.pid (.executing proc.task)) := by
  have hselected : life proc.pid = .selected proc.task := (h.selected proc.pid proc.task).mpr ⟨proc, hthread, rfl, rfl⟩
  refine h.move rfl ?_ ?_ ?_ ?_ ?_ ?_ ?_ ?_ ?_
  · cases proc.task <;> rfl
  · simp [hselected]
  · simp
  · rw [hselected]
    rfl
  · intro pid
    by_cases hpid : pid = proc.pid
    · rw [if_pos hpid, hpid, h.states, hselected]
      rfl
    · rw [if_neg hpid]
  · intro pid task
    rw [← h.queued pid task]
    by_cases hpid : pid = proc.pid
    · simp [hpid, hselected]
    · rw [if_neg hpid]
  · intro pid task
    by_cases hpid : pid = proc.pid
    · simp [hpid]
    · rw [if_neg hpid, h.selected pid task, hthread]
      simp [Ne.symm hpid]
  · intro pid task
    by_cases hpid : pid = proc.pid
    · simp [hpid]
    · rw [if_neg hpid, h.executing pid task, hthread]
      simp [Ne.symm hpid]
  · intro pid
    by_cases hpid : pid = proc.pid
    · rw [if_pos hpid, hpid, hselected]
      cases proc.task <;> simp [Life.invoked, invocations]
    · rw [if_neg hpid]
      cases proc.task <;> simp [invocations, Ne.symm hpid]

theorem terminate (h : Lives es s life) (hthread : s.schedulerThread = .executing proc) :
    Lives (es ++ [.terminated proc.pid])
      { s with
        processStates := s.processStates.set proc.pid .terminated
        schedulerThread := .waiting }
      (Function.update life proc.pid (.ended proc.task)) := by
  have hexecuting : life proc.pid = .executing proc.task :=
    (h.executing proc.pid proc.task).mpr ⟨proc, hthread, rfl, rfl⟩
  refine h.move rfl rfl ?_ ?_ ?_ ?_ ?_ ?_ ?_ ?_
  · simp [hexecuting]
  · simp
  · rw [hexecuting]
    rfl
  · intro pid
    exact Dict.get?_set _ _ _ _
  · intro pid task
    rw [← h.queued pid task]
    by_cases hpid : pid = proc.pid
    · simp [hpid, hexecuting]
    · rw [if_neg hpid]
  · intro pid task
    by_cases hpid : pid = proc.pid
    · simp [hpid]
    · rw [if_neg hpid, h.selected pid task, hthread]
      simp
  · intro pid task
    by_cases hpid : pid = proc.pid
    · simp [hpid]
    · rw [if_neg hpid, h.executing pid task, hthread]
      simp [Ne.symm hpid]
  · intro pid
    change (life pid).invoked ++ [] = _
    by_cases hpid : pid = proc.pid
    · rw [if_pos hpid, hpid, hexecuting, List.append_nil]
      rfl
    · rw [if_neg hpid, List.append_nil]

theorem step_update {q : ℤ} {stage : Life τ} (hstep : Life.Step (life q) stage) (pid : ℤ) :
    Life.Step (life pid) (Function.update life q stage pid) := by
  rw [Function.update_apply]
  split_ifs with hpid
  · rw [hpid]
    exact hstep
  · exact .stay _

theorem transition (h : Lives es s life) (hq : Queued es s) (ht : Transition s s' new) :
    ∃ life', Lives (es ++ new) s' life' ∧ ∀ pid, Life.Step (life pid) (life' pid) := by
  have hstay : ∀ pid, Life.Step (life pid) (life pid) := fun pid => .stay (life pid)
  cases ht with
  | flagged running =>
    rw [List.append_nil]
    exact ⟨life, ⟨h.states, h.queued, h.selected, h.executing, h.invoked, h.born, h.fresh⟩, hstay⟩
  | launched hthread =>
    refine ⟨life, h.of_idle rfl rfl rfl ?_ SchedulerThread.idle_waiting rfl (fun _ => rfl), hstay⟩
    rw [hthread]
    exact SchedulerThread.idle_notJoinable
  | unjoined =>
    rw [List.append_nil]
    exact ⟨life, h, hstay⟩
  | joined hthread =>
    refine ⟨life, h.of_idle rfl rfl rfl ?_ SchedulerThread.idle_notJoinable rfl (fun _ => rfl), hstay⟩
    rw [hthread]
    exact SchedulerThread.idle_finished
  | added task priority name =>
    refine ⟨_, h.add task priority name, fun pid => step_update ?_ pid⟩
    rw [h.fresh s.nextPid (le_refl _)]
    exact .add task
  | exited hthread =>
    refine ⟨life, h.of_idle rfl rfl rfl ?_ SchedulerThread.idle_finished rfl (fun _ => rfl), hstay⟩
    rw [hthread]
    exact SchedulerThread.idle_waiting
  | taken proc rest hthread hqueue =>
    refine ⟨_, h.take hq hthread hqueue, fun pid => step_update ?_ pid⟩
    rw [(h.queued proc.pid proc.task).mpr ⟨proc, by simp [hqueue], rfl, rfl⟩]
    exact .take proc.task
  | invoked proc hthread =>
    refine ⟨_, h.invoke hthread, fun pid => step_update ?_ pid⟩
    rw [(h.selected proc.pid proc.task).mpr ⟨proc, hthread, rfl, rfl⟩]
    exact .invoke proc.task
  | terminated proc hthread =>
    refine ⟨_, h.terminate hthread, fun pid => step_update ?_ pid⟩
    rw [(h.executing proc.pid proc.task).mpr ⟨proc, hthread, rfl, rfl⟩]
    exact .finish proc.task

theorem initial : Lives ([] : List (Event τ)) .initial (fun _ => .unborn) := by
  constructor
  · intro pid
    rfl
  · intro pid task
    refine iff_of_false (fun heq => by cases heq) ?_
    rintro ⟨proc, hproc, -⟩
    cases hproc
  · intro pid task
    refine iff_of_false (fun heq => by cases heq) ?_
    rintro ⟨proc, hproc, -⟩
    cases hproc
  · intro pid task
    refine iff_of_false (fun heq => by cases heq) ?_
    rintro ⟨proc, hproc, -⟩
    cases hproc
  · intro pid
    rfl
  · intro proc hproc
    cases hproc
  · intro pid _
    rfl

theorem ended (h : Lives es s life) (hqueue : s.readyQueue = []) (hidle : s.schedulerThread.Idle)
    (hproc : proc ∈ added es) : life proc.pid = .ended proc.task := by
  obtain ⟨hne, htask⟩ := h.born proc hproc
  cases hlife : life proc.pid with
  | unborn => exact absurd hlife hne
  | queued task =>
    obtain ⟨other, hother, -⟩ := (h.queued proc.pid task).mp hlife
    rw [hqueue] at hother
    cases hother
  | selected task =>
    obtain ⟨other, hthread, -⟩ := (h.selected proc.pid task).mp hlife
    exact absurd hthread (hidle.1 other)
  | executing task =>
    obtain ⟨other, hthread, -⟩ := (h.executing proc.pid task).mp hlife
    exact absurd hthread (hidle.2 other)
  | ended task =>
    rw [hlife] at htask
    exact congrArg Life.ended htask

theorem ready_iff (h : Lives es s life) (pid : ℤ) :
    s.processStates.get? pid = some .ready ↔ ∃ proc ∈ s.readyQueue, proc.pid = pid := by
  rw [h.states pid]
  constructor
  · intro hready
    cases hlife : life pid with
    | queued task =>
      obtain ⟨proc, hproc, hpid, -⟩ := (h.queued pid task).mp hlife
      exact ⟨proc, hproc, hpid⟩
    | _ =>
      rw [hlife] at hready
      cases hready
  · rintro ⟨proc, hproc, hpid⟩
    rw [(h.queued pid proc.task).mpr ⟨proc, hproc, hpid, rfl⟩]
    rfl

theorem running_thread (h : Lives es s life) {pid : ℤ} (hrunning : s.processStates.get? pid = some .running) :
    ∃ proc, (s.schedulerThread = .selected proc ∨ s.schedulerThread = .executing proc) ∧ proc.pid = pid := by
  rw [h.states pid] at hrunning
  cases hlife : life pid with
  | selected task =>
    obtain ⟨proc, hthread, hpid, -⟩ := (h.selected pid task).mp hlife
    exact ⟨proc, .inl hthread, hpid⟩
  | executing task =>
    obtain ⟨proc, hthread, hpid, -⟩ := (h.executing pid task).mp hlife
    exact ⟨proc, .inr hthread, hpid⟩
  | _ =>
    rw [hlife] at hrunning
    cases hrunning

theorem running_unique (h : Lives es s life) {p q : ℤ} (hp : s.processStates.get? p = some .running)
    (hq : s.processStates.get? q = some .running) : p = q := by
  obtain ⟨proc, hthread, rfl⟩ := h.running_thread hp
  obtain ⟨other, hthread', rfl⟩ := h.running_thread hq
  rcases hthread with hthread | hthread
  · rw [hthread] at hthread'
    rcases hthread' with heq | heq
    · rw [SchedulerThread.selected.inj heq]
    · cases heq
  · rw [hthread] at hthread'
    rcases hthread' with heq | heq
    · cases heq
    · rw [SchedulerThread.executing.inj heq]

end Lives

theorem Reaches.lives (h : Reaches es s) : ∃ life, Lives es s life := by
  have hboth : Queued es s ∧ ∃ life, Lives es s life := by
    refine h.induct (P := fun es s => Queued es s ∧ ∃ life, Lives es s life) ?_ ?_
    · exact ⟨Reaches.initial.queued, _, Lives.initial⟩
    · rintro es s s' new ⟨hq, life, hlives⟩ ht
      obtain ⟨life', hlives', -⟩ := hlives.transition hq ht
      exact ⟨hq.transition ht, life', hlives'⟩
  exact hboth.2

theorem Reaches.tasks_run_once (h : Reaches es s) :
    (∀ pid, (invocations es pid).length ≤ 1) ∧
      (∀ action s' new, s.step action = some (s', new) →
        ∀ pid, StateMove (s.processStates.get? pid) (s'.processStates.get? pid)) ∧
      (∀ pid, s.processStates.get? pid = some .ready ↔ ∃ proc ∈ s.readyQueue, proc.pid = pid) ∧
      (∀ p q, s.processStates.get? p = some .running → s.processStates.get? q = some .running → p = q) ∧
      ∀ action s' new, s.step action = some (s', new) → .exited ∈ new → ∀ proc ∈ added es,
        s'.processStates.get? proc.pid = some .terminated ∧ invocations es proc.pid = proc.task.toList := by
  obtain ⟨life, hlives⟩ := h.lives
  refine ⟨?_, ?_, hlives.ready_iff, fun p q => hlives.running_unique, ?_⟩
  · intro pid
    rw [hlives.invoked pid]
    exact Life.invoked_length_le (life pid)
  · intro action s' new hs pid
    obtain ⟨life', hlives', hmoves⟩ := hlives.transition h.queued (step_transition hs)
    rw [hlives.states pid, hlives'.states pid]
    exact (hmoves pid).status
  · intro action s' new hs hexit proc hproc
    have ht := step_transition hs
    cases ht with
    | exited hthread hqueue =>
      have hidle : s.schedulerThread.Idle := by
        rw [hthread]
        exact SchedulerThread.idle_waiting
      have hended := hlives.ended hqueue hidle hproc
      constructor
      · change s.processStates.get? proc.pid = _
        rw [hlives.states, hended]
        rfl
      · rw [hlives.invoked, hended]
        rfl
    | invoked proc' => cases proc'.task <;> simp at hexit
    | _ => simp at hexit

def addedWhileRunning : List (Action String) :=
  [.addProcess (some "low") 0 "", .addProcess (some "high") 5 "", .setRunning, .launch, .schedulerLoop, .schedulerLoop,
    .addProcess (some "late") 3 "", .schedulerLoop, .schedulerLoop, .schedulerLoop, .schedulerLoop, .clearRunning,
    .schedulerLoop, .schedulerLoop, .schedulerLoop]

theorem Reaches.tasks_run_once_late :
    let es := (CoreSystem.outcome addedWhileRunning).2
    invocations es 1 = ["low"] ∧ invocations es 2 = ["high"] ∧ invocations es 3 = ["late"] := by
  have hexit := (Reaches.outcome addedWhileRunning).tasks_run_once.2.2.2.2
  have hdone := hexit .schedulerLoop _ _ rfl (List.mem_singleton.mpr rfl)
  have hlow := hdone ⟨1, 0, .ready, "", some "low"⟩ (.head _)
  have hhigh := hdone ⟨2, 5, .ready, "", some "high"⟩ (.tail _ (.head _))
  have hlate := hdone ⟨3, 3, .ready, "", some "late"⟩ (.tail _ (.tail _ (.head _)))
  exact ⟨hlow.2, hhigh.2, hlate.2⟩

def startAndDrain (task : Option Unit) : List (Action Unit) :=
  [.addProcess task 0 "", .setRunning, .launch, .schedulerLoop, .schedulerLoop, .schedulerLoop, .clearRunning]

theorem empty_task_not_invoked : ¬ ∀ es (s : CoreSystem Unit), Reaches es s →
    ∀ action s' new, s.step action = some (s', new) → .exited ∈ new → ∀ proc ∈ added es,
      ∃ task, invocations es proc.pid = [task] := by
  intro h
  obtain ⟨task, hinvoked⟩ := h _ _ (Reaches.outcome (startAndDrain none)) .schedulerLoop _ _ rfl
    (List.mem_singleton.mpr rfl) ⟨1, 0, .ready, "", none⟩ (List.mem_singleton.mpr rfl)
  cases hinvoked

end TrinityOS.Core
