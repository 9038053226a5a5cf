import TrinityOS.Core.Lifecycle
import TrinityOS.Core.TaskLifecycle

namespace TrinityOS.Core

variable {τ : Type}

/-- What the calls alone decide: `served` are the processes that some `stop` has waited for,
`backlog` those added since, with the scheduler `started` or not. -/
structure Ledger (τ : Type) where
  nextPid : ℤ
  started : Bool
  served : List (Process τ)
  backlog : List (Process τ)

def Ledger.call (l : Ledger τ) : Call τ → Ledger τ
  | .start => { l with started := true }
  | .stop => if l.started then { l with started := false, served := l.served ++ l.backlog, backlog := [] } else l
  | .addProcess task priority name =>
    { l with nextPid := l.nextPid + 1, backlog := l.backlog ++ [⟨l.nextPid, priority, .ready, name, task⟩] }

def ledger (calls : List (Call τ)) : Ledger τ := calls.foldl Ledger.call ⟨1, false, [], []⟩

theorem ledger_concat (calls : List (Call τ)) (call : Call τ) : ledger (calls ++ [call]) = (ledger calls).call call :=
  List.foldl_concat _ _ _ _

theorem ledger_started (calls : List (Call τ)) : (ledger calls).started = started calls := by
  induction calls using List.reverseRecOn with
  | nil => rfl
  | append_singleton calls call ih =>
    rw [ledger_concat, Lifetime.started_concat]
    cases call with
    | start => rfl
    | stop =>
      unfold Ledger.call
      dsimp only
      split
      · rfl
      case isFalse h => exact Bool.not_eq_true _ ▸ h
    | addProcess => exact ih

structure Settled (es : List (Event τ)) (s : CoreSystem τ) (l : Ledger τ) : Prop where
  added : added es = l.served ++ l.backlog
  served : ∀ proc ∈ l.served, s.processStates.get? proc.pid = some .terminated ∧
    invocations es proc.pid = proc.task.toList
  waiting : l.started = false → s.readyQueue = sortDescending Process.priority l.backlog ∧
    ∀ proc ∈ l.backlog, s.processStates.get? proc.pid = some .ready ∧ invocations es proc.pid = []

namespace Lifetime

def clientEvents (m : Lifetime τ) : List (Event τ) :=
  match m.todo with
  | .action action :: _ => ((m.system.step action).map (·.2)).getD []
  | _ => []

inductive Runs (calls : List (Call τ)) : List (Event τ) → Lifetime τ → Prop
  | construct : Runs calls [] (construct calls)
  | client {es m m'} (h : Runs calls es m) (ha : m.aborted = false) (hs : m.client = some m') :
      Runs calls (es ++ m.clientEvents) m'
  | scheduler {es m system new} (h : Runs calls es m) (ha : m.aborted = false)
      (hs : m.system.schedulerLoop = some (system, new)) :
      Runs calls (es ++ new) { m with system, threads := m.threads - new.countP Event.isExit }

variable {calls : List (Call τ)} {es : List (Event τ)} {m m' : Lifetime τ}

theorem Runs.reachable (h : Runs calls es m) : Reachable calls m := by
  induction h with
  | construct => exact .refl
  | client _ ha hs ih => exact ih.tail (.client ha hs)
  | scheduler _ ha hs ih =>
    apply ih.tail
    apply Step.scheduler ha
    rw [Lifetime.scheduler, hs]
    rfl

theorem clientEvents_of {action : Action τ} {rest : List (Statement τ)} {s' : CoreSystem τ} {new : List (Event τ)}
    (htodo : m.todo = .action action :: rest) (hstep : m.system.step action = some (s', new)) : m.clientEvents = new := by
  simp only [clientEvents, htodo, hstep, Option.map_some, Option.getD_some]

theorem client_step (hs : m.client = some m') :
    (m'.system = m.system ∧ m.clientEvents = []) ∨
      ∃ action, m.system.step action = some (m'.system, m.clientEvents) := by
  unfold client at hs
  unfold clientEvents
  split at hs
  case h_1 htodo =>
    left
    split at hs
    · obtain rfl := Option.some.inj hs
      exact ⟨rfl, by rw [htodo]⟩
    · split at hs
      · cases hs
      · obtain rfl := Option.some.inj hs
        exact ⟨rfl, by rw [htodo]⟩
  case h_2 rest htodo =>
    dsimp only at hs
    simp only [htodo]
    cases hlaunch : m.system.launch with
    | none =>
      simp only [hlaunch] at hs
      obtain rfl := Option.some.inj hs
      exact .inl ⟨rfl, by simp [CoreSystem.step, hlaunch]⟩
    | some system =>
      simp only [hlaunch] at hs
      obtain rfl := Option.some.inj hs
      exact .inr ⟨.launch, by simp [CoreSystem.step, hlaunch]⟩
  case h_3 action rest _ htodo =>
    obtain ⟨⟨system, new⟩, hstep, rfl⟩ := Option.map_eq_some_iff.mp hs
    simp only [htodo, hstep]
    exact .inr ⟨action, by simpa using hstep⟩
  case h_4 rest htodo =>
    obtain rfl := Option.some.inj hs
    exact .inl ⟨rfl, by rw [htodo]⟩

theorem Runs.reaches (h : Runs calls es m) : Reaches es m.system := by
  induction h with
  | construct => exact .initial
  | client _ _ hs ih =>
    rcases client_step hs with ⟨hsystem, hevents⟩ | ⟨action, hstep⟩
    · rw [hsystem, hevents, List.append_nil]
      exact ih
    · exact ih.step hstep
  | @scheduler _ m _ _ _ _ hs ih =>
    have hstep : m.system.step .schedulerLoop = _ := hs
    exact ih.step hstep

theorem Reachable.runs (h : Reachable calls m) : ∃ es, Runs calls es m := by
  induction h with
  | refl => exact ⟨[], .construct⟩
  | tail _ hstep ih =>
    obtain ⟨es, hruns⟩ := ih
    cases hstep with
    | client ha hs => exact ⟨_, hruns.client ha hs⟩
    | scheduler ha hs =>
      obtain ⟨⟨system, new⟩, hloop, rfl⟩ := Option.map_eq_some_iff.mp hs
      exact ⟨_, hruns.scheduler ha hloop⟩

end Lifetime

section settled

variable {es new : List (Event τ)} {s s' : CoreSystem τ} {l : Ledger τ} {proc : Process τ}

theorem Reaches.invoked_of_terminated (h : Reaches es s) (hproc : proc ∈ added es)
    (hstate : s.processStates.get? proc.pid = some .terminated) : invocations es proc.pid = proc.task.toList := by
  obtain ⟨life, hlives⟩ := h.lives
  have htask := (hlives.born proc hproc).2
  rw [hlives.states] at hstate
  rw [hlives.invoked]
  cases hlife : life proc.pid with
  | ended task =>
    rw [hlife] at htask
    exact congrArg Option.toList htask
  | _ =>
    rw [hlife] at hstate
    cases hstate

theorem Reaches.invoked_of_ready (h : Reaches es s) {pid : ℤ} (hstate : s.processStates.get? pid = some .ready) :
    invocations es pid = [] := by
  obtain ⟨life, hlives⟩ := h.lives
  rw [hlives.states] at hstate
  rw [hlives.invoked]
  cases hlife : life pid with
  | queued => rfl
  | _ =>
    rw [hlife] at hstate
    cases hstate

theorem Reaches.pending_iff (h : Reaches es s) (hproc : proc ∈ TrinityOS.Core.added es) :
    proc.pid ∉ takenPids es ↔ s.processStates.get? proc.pid = some .ready := by
  have hready := h.tasks_run_once.2.2.1 proc.pid
  constructor
  · intro htaken
    refine hready.mpr ⟨proc, h.queued.mem_readyQueue.mpr (List.mem_filter.mpr ⟨hproc, ?_⟩), rfl⟩
    exact decide_eq_true htaken
  · intro hstate
    obtain ⟨other, hother, hpid⟩ := hready.mp hstate
    have htaken := (List.mem_filter.mp (h.queued.mem_readyQueue.mp hother)).2
    rw [← hpid]
    exact of_decide_eq_true htaken

structure Kept (es : List (Event τ)) (s : CoreSystem τ) (l : Ledger τ) : Prop where
  added : added es = l.served ++ l.backlog
  nextPid : s.nextPid = l.nextPid
  served : ∀ proc ∈ l.served, s.processStates.get? proc.pid = some .terminated
  waiting : l.started = false → ∀ proc ∈ l.backlog, s.processStates.get? proc.pid = some .ready

theorem Kept.settled (h : Kept es s l) (hr : Reaches es s) : Settled es s l := by
  constructor
  · exact h.added
  · intro proc hproc
    have hadded : proc ∈ TrinityOS.Core.added es := by
      rw [h.added]
      exact List.mem_append_left _ hproc
    exact ⟨h.served proc hproc, hr.invoked_of_terminated hadded (h.served proc hproc)⟩
  · intro hstarted
    have hwaiting := h.waiting hstarted
    refine ⟨?_, fun proc hproc => ⟨hwaiting proc hproc, hr.invoked_of_ready (hwaiting proc hproc)⟩⟩
    have hpending : pending es = l.backlog := by
      have hmem : ∀ proc ∈ l.served ++ l.backlog,
          (proc.pid ∉ takenPids es ↔ s.processStates.get? proc.pid = some .ready) := by
        rw [← h.added]
        exact fun proc hproc => hr.pending_iff hproc
      rw [pending, h.added, List.filter_append]
      rw [List.filter_eq_nil_iff.mpr, List.filter_eq_self.mpr, List.nil_append]
      · intro proc hproc
        rw [decide_eq_true_eq, hmem proc (List.mem_append_right _ hproc)]
        exact hwaiting proc hproc
      · intro proc hproc
        rw [decide_eq_true_eq, hmem proc (List.mem_append_left _ hproc), h.served proc hproc]
        intro heq
        cases heq
    rw [hr.readyQueue_sorted.1, hpending]

theorem Kept.congr (h : Kept es s l) (hnew : TrinityOS.Core.added new = []) (hpid : s'.nextPid = s.nextPid)
    (hstates : s'.processStates = s.processStates) : Kept (es ++ new) s' l := by
  constructor
  · rw [added_append, hnew, List.append_nil]
    exact h.added
  · exact hpid.trans h.nextPid
  · rw [hstates]
    exact h.served
  · rw [hstates]
    exact h.waiting

theorem StateMove.of_terminated {state : Option ProcessState} (h : StateMove (some .terminated) state) :
    state = some .terminated := by
  cases h with
  | stay => rfl

theorem schedulerLoop_quiet (h : s.schedulerLoop = some (s', new)) :
    TrinityOS.Core.added new = [] ∧ s'.nextPid = s.nextPid ∧ s.schedulerThread ≠ .notJoinable ∧
      s'.schedulerThread ≠ .notJoinable ∧ (s'.schedulerThread = .finished → s'.readyQueue = []) := by
  unfold CoreSystem.schedulerLoop at h
  split at h
  case h_1 => cases h
  case h_2 hthread =>
    split at h
    case h_1 hqueue =>
      split at h
      · cases h
      · obtain ⟨rfl, rfl⟩ := Prod.mk.inj (Option.some.inj h)
        exact ⟨rfl, rfl, by simp [hthread], nofun, fun _ => hqueue⟩
    case h_2 =>
      obtain ⟨rfl, rfl⟩ := Prod.mk.inj (Option.some.inj h)
      exact ⟨rfl, rfl, by simp [hthread], nofun, nofun⟩
  case h_3 proc hthread =>
    obtain ⟨rfl, rfl⟩ := Prod.mk.inj (Option.some.inj h)
    refine ⟨?_, rfl, by simp [hthread], nofun, nofun⟩
    cases proc.task <;> rfl
  case h_4 hthread =>
    obtain ⟨rfl, rfl⟩ := Prod.mk.inj (Option.some.inj h)
    exact ⟨rfl, rfl, by simp [hthread], nofun, nofun⟩
  case h_5 => cases h

theorem Kept.schedulerLoop (h : Kept es s l) (hr : Reaches es s) (hstarted : l.started = true)
    (hs : s.schedulerLoop = some (s', new)) : Kept (es ++ new) s' l := by
  obtain ⟨hadded, hpid, -⟩ := schedulerLoop_quiet hs
  constructor
  · rw [added_append, hadded, List.append_nil]
    exact h.added
  · exact hpid.trans h.nextPid
  · intro proc hproc
    have hmove := hr.tasks_run_once.2.1 .schedulerLoop s' new hs proc.pid
    rw [h.served proc hproc] at hmove
    exact hmove.of_terminated
  · intro hstopped
    exact absurd (hstarted.symm.trans hstopped) (by decide)

theorem Kept.addProcess (h : Kept es s l) (hr : Reaches es s) (task : Option τ) (priority : ℤ) (name : String) :
    Kept (es ++ [.added (s.addProcess task priority name).2]) (s.addProcess task priority name).1
      (l.call (.addProcess task priority name)) := by
  have hbelow : ∀ proc ∈ l.served ++ l.backlog, proc.pid ≠ s.nextPid := by
    intro proc hproc
    rw [← h.added] at hproc
    exact (hr.queued.added_below proc hproc).ne
  have hstates : ∀ pid, (s.addProcess task priority name).1.processStates.get? pid =
      if pid = s.nextPid then some .ready else s.processStates.get? pid := fun pid => Dict.get?_set _ _ _ _
  constructor
  · change TrinityOS.Core.added _ = l.served ++ (l.backlog ++ [_])
    rw [added_append, h.added, List.append_assoc, ← h.nextPid]
    rfl
  · exact congrArg (· + 1) h.nextPid
  · intro proc hproc
    rw [hstates, if_neg (hbelow proc (List.mem_append_left _ hproc))]
    exact h.served proc hproc
  · intro hstarted proc hproc
    rw [hstates]
    rcases List.mem_append.mp hproc with hproc | hproc
    · rw [if_neg (hbelow proc (List.mem_append_right _ hproc))]
      exact h.waiting hstarted proc hproc
    · rw [List.mem_singleton.mp hproc]
      exact if_pos h.nextPid.symm

theorem Kept.start (h : Kept es s l) : Kept es s (l.call .start) := ⟨h.added, h.nextPid, h.served, nofun⟩

/-- The join has waited for the loop to be left, which happens at an empty queue. -/
theorem Kept.stop (h : Kept es s l) (hr : Reaches es s)
    (hdone : l.started = true → s.readyQueue = [] ∧ s.schedulerThread.Idle) : Kept es s (l.call .stop) := by
  unfold Ledger.call
  dsimp only
  split
  case isTrue hstarted =>
    obtain ⟨hqueue, hidle⟩ := hdone hstarted
    obtain ⟨life, hlives⟩ := hr.lives
    refine ⟨?_, h.nextPid, ?_, fun _ => nofun⟩
    · rw [List.append_nil]
      exact h.added
    · rw [← h.added]
      intro proc hproc
      rw [hlives.states, hlives.ended hqueue hidle hproc]
      rfl
  · exact h

end settled

namespace Lifetime

/-- The calls begun, the statements left of the last one, and the calls that are done. -/
inductive Doing : List (Call τ) → List (Statement τ) → List (Call τ) → Prop
  | between {begun} : Doing begun [] begun
  | adding {done task priority name} :
      Doing (done ++ [.addProcess task priority name]) [.action (.addProcess task priority name)] done
  | starting {done} : Doing (done ++ [.start]) [.action .setRunning, .action .launch] done
  | launching {done} : Doing (done ++ [.start]) [.action .launch] done
  | stopping {done rest} (hrest : rest = [] ∨ rest = [.destroyThread]) :
      Doing (done ++ [.stop]) (.action .clearRunning :: .action .join :: rest) done
  | joining {done rest} (hrest : rest = [] ∨ rest = [.destroyThread]) :
      Doing (done ++ [.stop]) (.action .join :: rest) done
  | destroying {begun} : Doing begun [.destroyThread] begun

variable {calls done : List (Call τ)} {es : List (Event τ)} {m m' : Lifetime τ}

theorem doing_statements (done : List (Call τ)) (call : Call τ) : Doing (done ++ [call]) call.statements done := by
  cases call with
  | start => exact .starting
  | stop => exact .stopping (.inl rfl)
  | addProcess => exact .adding

structure Tracked (calls : List (Call τ)) (es : List (Event τ)) (m : Lifetime τ) (done : List (Call τ)) : Prop where
  doing : Doing m.begun m.todo done
  destroyed : m.destroyed = true → m.begun = calls ++ [.stop]
  kept : Kept es m.system (ledger done)
  thread : m.system.schedulerThread = .notJoinable ↔ started done = false
  finished : m.system.schedulerThread = .finished → m.system.readyQueue = []

theorem tracked_construct (calls : List (Call τ)) : Tracked calls [] (construct calls) [] := by
  constructor
  · exact .between
  · exact nofun
  · exact ⟨rfl, rfl, nofun, fun _ => nofun⟩
  · exact ⟨fun _ => rfl, fun _ => rfl⟩
  · exact nofun

theorem Tracked.scheduler (h : Tracked calls es m done) (hr : Reaches es m.system) {system : CoreSystem τ}
    {new : List (Event τ)} (hs : m.system.schedulerLoop = some (system, new)) (threads : ℕ) :
    Tracked calls (es ++ new) { m with system, threads } done := by
  obtain ⟨-, -, hthread, hthread', hfinished⟩ := schedulerLoop_quiet hs
  have hstarted : started done = true := by
    rw [← Bool.not_eq_false]
    exact fun hstopped => hthread (h.thread.mpr hstopped)
  refine ⟨h.doing, h.destroyed, h.kept.schedulerLoop hr ?_ hs, ?_, hfinished⟩
  · rw [ledger_started]
    exact hstarted
  · rw [hstarted]
    exact iff_of_false hthread' (by decide)

theorem Tracked.begins (h : Tracked calls es m done) (hsound : m.Sound calls) (htodo : m.todo = [])
    (hs : m.client = some m') : Tracked calls es m' done := by
  have hdoing := h.doing
  rw [htodo] at hdoing
  have hbegun : m.begun = done := by
    generalize m.begun = begun at hdoing
    cases hdoing with
    | between => rfl
  unfold client at hs
  simp only [htodo] at hs
  split at hs
  case h_1 call upcoming hup =>
    obtain rfl := Option.some.inj hs
    refine ⟨?_, fun hd => ?_, h.kept, h.thread, h.finished⟩
    · rw [hbegun]
      exact doing_statements done call
    · have hended := hsound.ended hd
      rw [hup] at hended
      cases hended
  case h_2 hup =>
    split at hs
    · cases hs
    case isFalse hd =>
      obtain rfl := Option.some.inj hs
      refine ⟨?_, fun _ => ?_, h.kept, h.thread, h.finished⟩
      · rw [hbegun]
        exact .stopping (.inr rfl)
      · have hsplit := hsound.split (by simpa using hd)
        rw [hup, List.append_nil] at hsplit
        exact congrArg (· ++ [.stop]) hsplit

theorem Phase.not_finished {st running : Bool} {thread : SchedulerThread τ} {task : Option τ} {priority : ℤ}
    {name : String} (h : Phase [.action (.addProcess task priority name)] st thread running) : thread ≠ .finished := by
  rintro rfl
  cases h with
  | active _ halive => cases halive

theorem launch_cases {s s' : CoreSystem τ} (h : s.launch = some s') :
    s.schedulerThread = .notJoinable ∧ s' = { s with schedulerThread := .waiting } := by
  unfold CoreSystem.launch at h
  split at h
  case h_1 hthread => exact ⟨hthread, (Option.some.inj h).symm⟩
  case h_2 => cases h

theorem join_cases {s s' : CoreSystem τ} (h : s.join = some s') :
    (s.schedulerThread = .notJoinable ∨ s.schedulerThread = .finished) ∧
      s' = { s with schedulerThread := .notJoinable } := by
  unfold CoreSystem.join at h
  split at h
  case h_1 hthread =>
    obtain rfl := Option.some.inj h
    exact ⟨.inl hthread, by rw [← hthread]⟩
  case h_2 hthread => exact ⟨.inr hthread, (Option.some.inj h).symm⟩
  case h_3 => cases h

theorem Tracked.client (h : Tracked calls es m done) (hr : Reaches es m.system) (hsound : m.Sound calls)
    (hsound' : m'.Sound calls) (hs : m.client = some m') : ∃ done', Tracked calls (es ++ m.clientEvents) m' done' := by
  by_cases htodo : m.todo = []
  · refine ⟨done, ?_⟩
    rw [clientEvents, htodo, List.append_nil]
    exact h.begins hsound htodo hs
  · have hphase := hsound.phase
    obtain ⟨system, begun, todo, upcoming, destroyed, threads, aborted⟩ := m
    obtain ⟨hdoing, hdestroyed, hkept, hthread, hfinished⟩ := h
    dsimp only at hdoing hdestroyed hkept hthread hfinished hphase hr htodo
    cases hdoing with
    | between => exact absurd rfl htodo
    | @adding _ task priority name =>
      obtain rfl := Option.some.inj hs
      refine ⟨_, .between, hdestroyed, ?_, ?_, ?_⟩
      · rw [ledger_concat]
        exact hkept.addProcess hr task priority name
      · rw [started_concat]
        exact hthread
      · intro hfinished'
        exact absurd hfinished' hphase.not_finished
    | starting =>
      obtain rfl := Option.some.inj hs
      exact ⟨_, .launching, hdestroyed, hkept.congr rfl rfl rfl, hthread, hfinished⟩
    | launching =>
      cases hlaunch : system.launch with
      | none =>
        simp only [Lifetime.client, hlaunch] at hs
        obtain rfl := Option.some.inj hs
        cases hsound'.not_aborted
      | some system' =>
        simp only [Lifetime.client, hlaunch] at hs
        obtain rfl := Option.some.inj hs
        obtain ⟨-, rfl⟩ := launch_cases hlaunch
        have hstep : system.step .launch = some ({ system with schedulerThread := .waiting }, []) := by
          rw [CoreSystem.step, hlaunch, Option.map_some]
        refine ⟨_, .between, hdestroyed, ?_, ?_, ?_⟩
        · rw [ledger_concat, clientEvents_of rfl hstep]
          exact hkept.start.congr rfl rfl rfl
        · rw [started_concat]
          constructor
          · intro hstopped
            cases hstopped
          · intro hwaiting
            cases hwaiting
        · intro hfinished'
          cases hfinished'
    | stopping hrest =>
      obtain rfl := Option.some.inj hs
      exact ⟨_, .joining hrest, hdestroyed, hkept.congr rfl rfl rfl, hthread, hfinished⟩
    | @joining _ rest hrest =>
      obtain ⟨⟨system', new⟩, hstep, rfl⟩ := Option.map_eq_some_iff.mp hs
      obtain ⟨joined, hjoin, heq⟩ := Option.map_eq_some_iff.mp hstep
      obtain ⟨rfl, rfl⟩ := Prod.mk.inj heq
      obtain ⟨hleft, rfl⟩ := join_cases hjoin
      have hdoing' : Doing (done ++ [.stop]) rest (done ++ [.stop]) := by
        rcases hrest with rfl | rfl
        · exact .between
        · exact .destroying
      refine ⟨_, hdoing', hdestroyed, ?_, ?_, ?_⟩
      · rw [ledger_concat, clientEvents_of rfl hstep]
        refine (hkept.stop hr fun hstarted => ?_).congr rfl rfl rfl
        rw [ledger_started] at hstarted
        have hfinished' := hleft.resolve_left fun hnot => by simp [hthread.mp hnot] at hstarted
        refine ⟨hfinished hfinished', ?_⟩
        rw [hfinished']
        exact SchedulerThread.idle_finished
      · rw [started_concat]
        exact ⟨fun _ => rfl, fun _ => rfl⟩
      · intro hfinished'
        cases hfinished'
    | destroying =>
      obtain rfl := Option.some.inj hs
      refine ⟨_, .between, hdestroyed, ?_, hthread, hfinished⟩
      exact hkept.congr rfl rfl rfl

theorem Runs.tracked (hapart : StartsApart calls) (h : Runs calls es m) : ∃ done, Tracked calls es m done := by
  induction h with
  | construct => exact ⟨[], tracked_construct calls⟩
  | client h ha hs ih =>
    obtain ⟨done, htracked⟩ := ih
    have hreachable := h.reachable
    exact htracked.client h.reaches (hreachable.sound hapart) ((hreachable.client ha hs).sound hapart) hs
  | scheduler h _ hs ih =>
    obtain ⟨done, htracked⟩ := ih
    exact ⟨done, htracked.scheduler h.reaches hs _⟩

theorem Runs.settled_between_calls (hapart : StartsApart calls) (h : Runs calls es m) (htodo : m.todo = []) :
    Settled es m.system (ledger m.begun) ∧ (m.destroyed = true → m.begun = calls ++ [.stop]) := by
  obtain ⟨done, htracked⟩ := h.tracked hapart
  have hdoing := htracked.doing
  rw [htodo] at hdoing
  generalize hbegun : m.begun = begun at hdoing
  cases hdoing with
  | between =>
    rw [← hbegun]
    exact ⟨hbegun ▸ htracked.kept.settled h.reaches, htracked.destroyed⟩

def turn (r : List (Event τ) × Lifetime τ) (client : Bool) : List (Event τ) × Lifetime τ :=
  if r.2.aborted then r
  else if client then (r.2.client.map (r.1 ++ r.2.clientEvents, ·)).getD r
  else (r.2.system.schedulerLoop.map fun loop =>
    (r.1 ++ loop.2, { r.2 with system := loop.1, threads := r.2.threads - loop.2.countP Event.isExit })).getD r

theorem Runs.turn {r : List (Event τ) × Lifetime τ} (h : Runs calls r.1 r.2) (client : Bool) :
    Runs calls (turn r client).1 (turn r client).2 := by
  unfold Lifetime.turn
  split
  · exact h
  case isFalse ha =>
    rw [Bool.not_eq_true] at ha
    split
    · cases hs : r.2.client with
      | none => exact h
      | some m' => exact h.client ha hs
    · cases hs : r.2.system.schedulerLoop with
      | none => exact h
      | some loop => exact h.scheduler ha hs

def schedule (calls : List (Call τ)) (turns : List Bool) : List (Event τ) × Lifetime τ :=
  turns.foldl turn ([], construct calls)

theorem runs_schedule (calls : List (Call τ)) (turns : List Bool) :
    Runs calls (schedule calls turns).1 (schedule calls turns).2 := by
  induction turns using List.reverseRecOn with
  | nil => exact .construct
  | append_singleton turns client ih =>
    rw [schedule, List.foldl_concat]
    exact ih.turn client

def servedAndLeft : List (Call Unit) := [.addProcess (some ()) 0 "a", .start, .stop, .addProcess (some ()) 0 "b"]

theorem servedAndLeft_startsApart : StartsApart servedAndLeft := by
  rintro pre ⟨rest, h⟩
  rcases pre with _ | ⟨a, _ | ⟨b, _ | ⟨c, _ | ⟨d, pre⟩⟩⟩⟩
  all_goals simp [servedAndLeft] at h
  rw [h.1]
  rfl

def servedAndLeftTurns : List Bool :=
  List.replicate 5 true ++ List.replicate 3 false ++ [true, true, false, true, true, true] ++ List.replicate 4 true

theorem Runs.settled_between_calls_left :
    Settled (schedule servedAndLeft servedAndLeftTurns).1 (schedule servedAndLeft servedAndLeftTurns).2.system
        (ledger (schedule servedAndLeft servedAndLeftTurns).2.begun) ∧
      ((schedule servedAndLeft servedAndLeftTurns).2.destroyed = true →
        (schedule servedAndLeft servedAndLeftTurns).2.begun = servedAndLeft ++ [.stop]) :=
  (runs_schedule servedAndLeft servedAndLeftTurns).settled_between_calls servedAndLeft_startsApart rfl

example : (schedule servedAndLeft servedAndLeftTurns).2.destroyed = true ∧
    (schedule servedAndLeft servedAndLeftTurns).2.client.isNone = true := ⟨rfl, rfl⟩

end Lifetime

end TrinityOS.Core
