import TrinityOS.Interleaving
import TrinityOS.Reports

namespace TrinityOS

namespace CoreSystem

/-- The part of `initialize` that writes the tables, on a system that may have served calls. -/
def initializeTables (s : CoreSystem) (now : ℕ → Float) : CoreSystem :=
  let kernelProc : ProcessInfo :=
    { processId := 0
      parentId := 0
      name := .str "kernel"
      state := .running
      priority := .system
      policy := .fifo
      creationTime := now 0 }
  let initProc : ProcessInfo :=
    { processId := 1
      parentId := 0
      name := .str "init"
      state := .ready
      priority := .system
      policy := .fifo
      creationTime := now 1 }
  let t := { s.tables with
    processes := (s.tables.processes.set 0 kernelProc).set 1 initProc
    readyQueue := s.tables.readyQueue ++ [1] }
  { s with tables := initMemory t (fun i => now (i + 2)) }

theorem initializeTables_registerSyscalls (now : ℕ → Float) :
    (registerSyscalls {}).initializeTables now = initializeSystem now := rfl

end CoreSystem

/-- What `psutil.virtual_memory()` does. -/
inductive Detection where
  | detected (capabilities : Capabilities)
  | importError
  | raised

def detectCapabilities : Detection → Option Capabilities
  | .detected capabilities => some capabilities
  | .importError => some ⟨1024 * 1024 * 1024, 1024 * 1024 * 1024 / 2⟩
  | .raised => none

inductive LoopPosition where
  | testing | passing | sleeping | left
  deriving DecidableEq

def LoopPosition.alive : LoopPosition → Bool
  | .left => false
  | _ => true

/-- A `threading.Thread`, by its place among those that were started. -/
inductive SchedulerThread where
  | unstarted
  | started (index : ℕ)

/-- The next statement of the thread inside `start` (the first three) or `stop`. -/
inductive ClientPosition where
  | idle | clearEvent | launch | setRunning | setEvent | join | clearRunning

inductive LifecycleCall where
  | initializeSystem | start | stop

/-- One `CoreSystem`, the thread that starts and stops it, and the threads in `_scheduler_loop`.
`log` holds the completed calls with what they returned, `timeouts` counts the joins that gave up. -/
structure Lifecycle where
  system : CoreSystem
  capabilities : Capabilities
  initialized : Bool
  running : Bool
  stopEvent : Bool
  schedulerThread : Option SchedulerThread
  loops : List LoopPosition
  position : ClientPosition
  log : List (LifecycleCall × Bool)
  timeouts : ℕ

namespace Lifecycle

def construct : Lifecycle := ⟨.registerSyscalls {}, ⟨0, 0⟩, false, false, false, none, [], .idle, [], 0⟩

def initializeSystem (m : Lifecycle) (detection : Detection) (now : ℕ → Float) : Lifecycle × Bool :=
  if m.initialized then (m, true)
  else
    match detectCapabilities detection with
    | none => (m, false)
    | some capabilities => ({ m with capabilities, system := m.system.initializeTables now, initialized := true }, true)

def returning (m : Lifecycle) (call : LifecycleCall) (value : Bool) : Lifecycle :=
  { m with position := .idle, log := m.log ++ [(call, value)] }

def call (m : Lifecycle) (detection : Detection) (now : ℕ → Float) : LifecycleCall → Lifecycle
  | .initializeSystem =>
    let r := m.initializeSystem detection now
    r.1.returning .initializeSystem r.2
  | .start =>
    let r := m.initializeSystem detection now
    if r.2 = false then r.1.returning .start false
    else if r.1.running then r.1.returning .start true
    else { r.1 with position := .clearEvent }
  | .stop => if m.running then { m with position := .setEvent } else m.returning .stop true

def schedulerLoop (m : Lifecycle) (i : ℕ) (now : Float) : Option Lifecycle :=
  match m.loops[i]? with
  | some .testing => some { m with loops := m.loops.set i (if m.stopEvent then .left else .passing) }
  | some .passing => some { m with system := m.system.pass now, loops := m.loops.set i .sleeping }
  | some .sleeping => some { m with loops := m.loops.set i .testing }
  | _ => none

def aliveAt (loops : List LoopPosition) (i : ℕ) : Bool := loops[i]?.any (·.alive)

/-- System calls come from any thread, and each is one step. -/
inductive Step (uuid4 : ℕ → String) (m : Lifecycle) : Lifecycle → Prop
  | syscall (p n args timing) : Step uuid4 m { m with system := (m.system.invokeSyscall uuid4 p n args timing).1 }
  | call (call detection now) (h : m.position = .idle) : Step uuid4 m (m.call detection now call)
  | clearEvent (h : m.position = .clearEvent) : Step uuid4 m { m with stopEvent := false, position := .launch }
  | launch (h : m.position = .launch) :
      Step uuid4 m { m with
        schedulerThread := some (.started m.loops.length)
        loops := m.loops ++ [.testing]
        position := .setRunning }
  -- the thread object is assigned before `Thread.start` raises
  | launchRaises (h : m.position = .launch) :
      Step uuid4 m ({ m with schedulerThread := some .unstarted }.returning .start false)
  | setRunning (h : m.position = .setRunning) : Step uuid4 m ({ m with running := true }.returning .start true)
  | setEvent (h : m.position = .setEvent) : Step uuid4 m { m with stopEvent := true, position := .join }
  | joinNone (h : m.position = .join) (hthread : m.schedulerThread = none) :
      Step uuid4 m { m with position := .clearRunning }
  | joinRaises (h : m.position = .join) (hthread : m.schedulerThread = some .unstarted) :
      Step uuid4 m (m.returning .stop false)
  | joined {i} (h : m.position = .join) (hthread : m.schedulerThread = some (.started i))
      (hleft : aliveAt m.loops i = false) : Step uuid4 m { m with schedulerThread := none, position := .clearRunning }
  | joinTimesOut {i} (h : m.position = .join) (hthread : m.schedulerThread = some (.started i))
      (halive : aliveAt m.loops i = true) :
      Step uuid4 m { m with schedulerThread := none, position := .clearRunning, timeouts := m.timeouts + 1 }
  | clearRunning (h : m.position = .clearRunning) : Step uuid4 m ({ m with running := false }.returning .stop true)
  | loop {m'} (i now) (h : m.schedulerLoop i now = some m') : Step uuid4 m m'

def Reachable (uuid4 : ℕ → String) (m : Lifecycle) : Prop := Relation.ReflTransGen (Step uuid4) construct m

def alive (m : Lifecycle) : ℕ := m.loops.countP (·.alive)

def started (log : List (LifecycleCall × Bool)) : Bool :=
  log.foldl (fun started entry =>
    match entry with
    | (.start, true) => true
    | (.stop, true) => false
    | _ => started) false

structure Orderly (m : Lifecycle) : Prop where
  alive_le : m.alive ≤ m.timeouts + 1
  stopped : m.position = .idle → m.running = false → m.alive ≤ m.timeouts
  served : m.position = .idle → m.running = true → m.initialized = true ∧ m.stopEvent = false ∧
    ∃ i, m.schedulerThread = some (.started i) ∧ aliveAt m.loops i = true
  reported : m.position = .idle → m.running = started m.log
  stops : (.stop, false) ∉ m.log

def current (m : Lifecycle) : Bool :=
  match m.schedulerThread with
  | some (.started i) => aliveAt m.loops i
  | _ => false

/-- What the client thread knows at each statement: whether the system is initialized and running,
the event is set, the thread it holds is alive, and the log has it started. -/
inductive Phase : ClientPosition → Bool → Bool → Bool → Option SchedulerThread → Bool → Bool → Prop
  | resting {init event thread} (hthread : ∀ i, thread ≠ some (.started i)) :
      Phase .idle init false event thread false false
  | serving {i} : Phase .idle true true false (some (.started i)) true true
  | clearing {event thread} (hthread : ∀ i, thread ≠ some (.started i)) :
      Phase .clearEvent true false event thread false false
  | launching {thread} (hthread : ∀ i, thread ≠ some (.started i)) :
      Phase .launch true false false thread false false
  | launched {i} : Phase .setRunning true false false (some (.started i)) true false
  | stopping {i} : Phase .setEvent true true false (some (.started i)) true true
  | joining {i current} : Phase .join true true true (some (.started i)) current true
  | joined : Phase .clearRunning true true true none false true

structure Sound (m : Lifecycle) : Prop where
  alive_le : m.alive ≤ m.timeouts + m.current.toNat
  phase : Phase m.position m.initialized m.running m.stopEvent m.schedulerThread m.current (started m.log)
  launched : m.loops ≠ [] → m.initialized = true
  stops : (.stop, false) ∉ m.log

variable {uuid4 : ℕ → String} {m m' : Lifecycle} {init running event c c' st : Bool} {thread : Option SchedulerThread}

theorem Phase.stopped (h : Phase .idle init false event thread c st) : c = false := by
  cases h with
  | resting => rfl

theorem Phase.served (h : Phase .idle init true event thread c st) :
    init = true ∧ event = false ∧ c = true ∧ ∃ i, thread = some (.started i) := by
  cases h with
  | serving => exact ⟨rfl, rfl, rfl, _, rfl⟩

theorem Phase.reported (h : Phase .idle init running event thread c st) : running = st := by
  cases h with
  | resting => rfl
  | serving => rfl

theorem Sound.orderly (h : m.Sound) : m.Orderly := by
  have halive := h.alive_le
  have hphase := h.phase
  constructor
  · have := Bool.toNat_le m.current
    omega
  · intro hidle hrunning
    rw [hidle, hrunning] at hphase
    rwa [hphase.stopped] at halive
  · intro hidle hrunning
    rw [hidle, hrunning] at hphase
    obtain ⟨hinit, hevent, hcurrent, i, hthread⟩ := hphase.served
    refine ⟨hinit, hevent, i, hthread, ?_⟩
    rwa [current, hthread] at hcurrent
  · intro hidle
    rw [hidle] at hphase
    exact hphase.reported
  · exact h.stops

theorem started_concat (log : List (LifecycleCall × Bool)) (entry : LifecycleCall × Bool) :
    started (log ++ [entry]) =
      match entry with
      | (.start, true) => true
      | (.stop, true) => false
      | _ => started log := List.foldl_concat _ _ _ _

theorem sound_construct : construct.Sound := by
  constructor
  · exact Nat.le_refl 0
  · exact .resting nofun
  · intro h
    exact absurd rfl h
  · exact List.not_mem_nil

section client

theorem initializeSystem_cases (m : Lifecycle) (detection : Detection) (now : ℕ → Float) :
    ∃ system capabilities init,
      m.initializeSystem detection now = ({ m with system, capabilities, initialized := init }, init) ∧
        (m.initialized = true → init = true ∧ system = m.system) ∧
        (m.initialized = false → system = if init then m.system.initializeTables now else m.system) := by
  unfold initializeSystem
  split
  case isTrue hinit =>
    refine ⟨m.system, m.capabilities, true, by rw [← hinit], fun _ => ⟨rfl, rfl⟩, fun h => ?_⟩
    exact absurd (h.symm.trans hinit) (by decide)
  case isFalse hinit =>
    rw [Bool.not_eq_true] at hinit
    split
    · refine ⟨m.system, m.capabilities, false, by rw [← hinit], fun h => ?_, fun _ => rfl⟩
      exact absurd (hinit.symm.trans h) (by decide)
    · refine ⟨_, _, true, rfl, fun h => ?_, fun _ => rfl⟩
      exact absurd (hinit.symm.trans h) (by decide)

theorem Phase.initialized (h : Phase .idle init running event thread c st) {init' : Bool}
    (himp : init = true → init' = true) : Phase .idle init' running event thread c st := by
  cases h with
  | resting hthread => exact .resting hthread
  | serving =>
    rw [himp rfl]
    exact .serving

theorem Phase.start (h : Phase .idle true false event thread c st) :
    Phase .clearEvent true false event thread c st := by
  cases h with
  | resting hthread => exact .clearing hthread

theorem Phase.stop (h : Phase .idle init true event thread c st) : Phase .setEvent init true event thread c st := by
  cases h with
  | serving => exact .stopping

theorem sound_returning {call : LifecycleCall} {value : Bool} (halive : m.alive ≤ m.timeouts + m.current.toNat)
    (hphase : Phase .idle m.initialized m.running m.stopEvent m.schedulerThread m.current
      (started (m.log ++ [(call, value)])))
    (hlaunched : m.loops ≠ [] → m.initialized = true) (hstops : (.stop, false) ∉ m.log)
    (hreturned : (call, value) ≠ (.stop, false)) : (m.returning call value).Sound := by
  refine ⟨halive, hphase, hlaunched, ?_⟩
  simp only [Lifecycle.returning, List.mem_append, List.mem_singleton, not_or]
  exact ⟨hstops, hreturned.symm⟩

theorem Sound.returning (h : m.Sound) (hidle : m.position = .idle) {call : LifecycleCall} {value : Bool}
    (hreturned : (call, value) ≠ (.stop, false)) (hst : started (m.log ++ [(call, value)]) = started m.log) :
    (m.returning call value).Sound := by
  apply sound_returning h.alive_le _ h.launched h.stops hreturned
  have hphase := h.phase
  rwa [hidle, ← hst] at hphase

theorem Sound.initializeSystem (h : m.Sound) (hidle : m.position = .idle) (detection : Detection) (now : ℕ → Float) :
    (m.initializeSystem detection now).1.Sound ∧ (m.initializeSystem detection now).1.position = .idle ∧
      (m.initializeSystem detection now).1.initialized = (m.initializeSystem detection now).2 := by
  obtain ⟨system, capabilities, init, heq, hinit, -⟩ := m.initializeSystem_cases detection now
  rw [heq]
  refine ⟨⟨h.alive_le, ?_, fun hloops => (hinit (h.launched hloops)).1, h.stops⟩, hidle, rfl⟩
  have hphase := h.phase
  rw [hidle] at hphase
  change Phase m.position _ _ _ _ _ _
  rw [hidle]
  exact hphase.initialized fun h => (hinit h).1

theorem Sound.call (h : m.Sound) (hidle : m.position = .idle) (detection : Detection) (now : ℕ → Float)
    (call : LifecycleCall) : (m.call detection now call).Sound := by
  obtain ⟨hsound, hidle', hinit⟩ := h.initializeSystem hidle detection now
  have hphase := hsound.phase
  rw [hidle'] at hphase
  cases call with
  | initializeSystem => exact hsound.returning hidle' nofun (started_concat _ _)
  | start =>
    unfold Lifecycle.call
    dsimp only
    split
    · exact hsound.returning hidle' nofun (started_concat _ _)
    case isFalse hvalue =>
      rw [Bool.not_eq_false] at hvalue
      split
      case isTrue hrunning =>
        apply hsound.returning hidle'
        · simp
        · rw [started_concat, ← hphase.reported, hrunning]
      case isFalse hrunning =>
        rw [Bool.not_eq_true] at hrunning
        refine ⟨hsound.alive_le, ?_, hsound.launched, hsound.stops⟩
        rw [hinit, hvalue, hrunning] at hphase
        change Phase .clearEvent _ _ _ _ _ _
        rw [hinit, hvalue, hrunning]
        exact hphase.start
  | stop =>
    have hphase := h.phase
    rw [hidle] at hphase
    unfold Lifecycle.call
    dsimp only
    split
    case isTrue hrunning =>
      refine ⟨h.alive_le, ?_, h.launched, h.stops⟩
      rw [hrunning] at hphase
      change Phase .setEvent _ _ _ _ _ _
      rw [hrunning]
      exact hphase.stop
    case isFalse hrunning =>
      rw [Bool.not_eq_true] at hrunning
      apply h.returning hidle
      · simp
      · rw [started_concat, ← hphase.reported, hrunning]

theorem Phase.clearEvent (h : Phase .clearEvent init running event thread c st) :
    Phase .launch init running false thread c st := by
  cases h with
  | clearing hthread => exact .launching hthread

theorem Phase.launch (h : Phase .launch init running event thread c st) (i : ℕ) :
    init = true ∧ c = false ∧ Phase .setRunning init running event (some (.started i)) true st := by
  cases h with
  | launching => exact ⟨rfl, rfl, .launched⟩

theorem Phase.launchRaises (h : Phase .launch init running event thread c st) :
    c = false ∧ Phase .idle init running event (some .unstarted) false st := by
  cases h with
  | launching => exact ⟨rfl, .resting nofun⟩

theorem Phase.setRunning (h : Phase .setRunning init running event thread c st) :
    Phase .idle init true event thread c true := by
  cases h with
  | launched => exact .serving

theorem Phase.setEvent (h : Phase .setEvent init running event thread c st) :
    Phase .join init running true thread c st := by
  cases h with
  | stopping => exact .joining

theorem Phase.join (h : Phase .join init running event thread c st) :
    (∃ i, thread = some (.started i)) ∧ Phase .clearRunning init running event none false st := by
  cases h with
  | joining => exact ⟨⟨_, rfl⟩, .joined⟩

theorem Phase.clearRunning (h : Phase .clearRunning init running event thread c st) :
    Phase .idle init false event thread c false := by
  cases h with
  | joined => exact .resting nofun

end client

section loop

theorem aliveAt_launched (loops : List LoopPosition) : aliveAt (loops ++ [.testing]) loops.length = true := by
  simp [aliveAt, LoopPosition.alive]

theorem schedulerLoop_cases {i : ℕ} {now : Float} (h : m.schedulerLoop i now = some m') :
    ∃ position position' system, m.loops[i]? = some position ∧ position.alive = true ∧
      (position'.alive = false → m.stopEvent = true) ∧ (system = m.system ∨ system = m.system.pass now) ∧
      m' = { m with system, loops := m.loops.set i position' } := by
  unfold schedulerLoop at h
  split at h
  case h_1 hloop =>
    obtain rfl := Option.some.inj h
    refine ⟨_, _, _, hloop, rfl, ?_, .inl rfl, rfl⟩
    cases m.stopEvent <;> simp [LoopPosition.alive]
  case h_2 hloop =>
    obtain rfl := Option.some.inj h
    exact ⟨.passing, .sleeping, _, hloop, rfl, nofun, .inr rfl, rfl⟩
  case h_3 hloop =>
    obtain rfl := Option.some.inj h
    exact ⟨.sleeping, .testing, _, hloop, rfl, nofun, .inl rfl, rfl⟩
  case h_4 => cases h

theorem aliveAt_set {loops : List LoopPosition} {i : ℕ} {position : LoopPosition} (position' : LoopPosition)
    (h : loops[i]? = some position) (hle : position'.alive = true → position.alive = true) (j : ℕ) :
    (aliveAt (loops.set i position') j = true → aliveAt loops j = true) ∧
      (position'.alive = position.alive → aliveAt (loops.set i position') j = aliveAt loops j) := by
  obtain ⟨hi, -⟩ := List.getElem?_eq_some_iff.mp h
  by_cases hij : i = j
  · subst hij
    simp only [aliveAt, List.getElem?_set_self hi, h, Option.any_some]
    exact ⟨hle, id⟩
  · simp only [aliveAt, List.getElem?_set_ne hij]
    exact ⟨id, fun _ => trivial⟩

theorem Phase.exit {position : ClientPosition} (h : Phase position init running true thread c st)
    (hc : c = false → c' = false) : Phase position init running true thread c' st := by
  cases h with
  | resting hthread =>
    rw [hc rfl]
    exact .resting hthread
  | clearing hthread =>
    rw [hc rfl]
    exact .clearing hthread
  | joining => exact .joining
  | joined =>
    rw [hc rfl]
    exact .joined

theorem current_loop {i : ℕ} {position : LoopPosition} (position' : LoopPosition) (h : m.loops[i]? = some position)
    (hposition : position.alive = true) (system : CoreSystem) :
    (m.current = false → { m with system, loops := m.loops.set i position' }.current = false) ∧
      (position'.alive = true → { m with system, loops := m.loops.set i position' }.current = m.current) := by
  have hset := aliveAt_set position' h fun _ => hposition
  unfold current
  dsimp only
  split
  case h_1 j _ =>
    constructor
    · intro hfalse
      rw [Bool.eq_false_iff]
      intro htrue
      exact absurd ((hset j).1 htrue) (by simp [hfalse])
    · intro halive
      exact (hset j).2 (halive.trans hposition.symm)
  · exact ⟨fun h => h, fun _ => rfl⟩

theorem Sound.loop (h : m.Sound) {i : ℕ} {now : Float} (hs : m.schedulerLoop i now = some m') : m'.Sound := by
  obtain ⟨position, position', system, hloop, hposition, hevent, -, rfl⟩ := schedulerLoop_cases hs
  obtain ⟨hi, hget⟩ := List.getElem?_eq_some_iff.mp hloop
  have hpos : 0 < m.alive := List.countP_pos_iff.mpr ⟨position, List.mem_of_getElem? hloop, hposition⟩
  have hcount := List.countP_set (p := LoopPosition.alive) (a := position') hi
  rw [hget, hposition, if_pos rfl] at hcount
  change Lifecycle.alive { m with system, loops := m.loops.set i position' } = m.alive - 1 + _ at hcount
  obtain ⟨hfalse, hsame⟩ := current_loop position' hloop hposition system
  have hphase := h.phase
  have halive := h.alive_le
  have hlaunched := h.launched (List.ne_nil_of_mem (List.mem_of_getElem? hloop))
  cases hposition' : position'.alive with
  | true =>
    have hcurrent := hsame hposition'
    rw [← hcurrent] at hphase
    refine ⟨?_, hphase, fun _ => hlaunched, h.stops⟩
    rw [hcount, hcurrent, if_pos hposition']
    dsimp only
    omega
  | false =>
    rw [hevent hposition'] at hphase
    refine ⟨?_, ?_, fun _ => hlaunched, h.stops⟩
    · rw [hcount, if_neg (by simp [hposition'])]
      dsimp only
      cases hcurrent : m.current with
      | true =>
        rw [hcurrent, Bool.toNat_true] at halive
        omega
      | false =>
        rw [hcurrent, Bool.toNat_false] at halive
        omega
    · change Phase _ _ _ m.stopEvent _ _ _
      rw [hevent hposition']
      exact hphase.exit hfalse

end loop

theorem Sound.step (h : m.Sound) (hs : Step uuid4 m m') : m'.Sound := by
  have halive := h.alive_le
  have hphase := h.phase
  cases hs with
  | syscall => exact ⟨halive, hphase, h.launched, h.stops⟩
  | call call detection now hidle => exact h.call hidle detection now call
  | clearEvent hpos =>
    rw [hpos] at hphase
    exact ⟨halive, hphase.clearEvent, h.launched, h.stops⟩
  | launch hpos =>
    rw [hpos] at hphase
    obtain ⟨hinit, hcurrent, hphase⟩ := hphase.launch m.loops.length
    have hnew : { m with
        schedulerThread := some (.started m.loops.length)
        loops := m.loops ++ [LoopPosition.testing]
        position := .setRunning }.current = true := aliveAt_launched m.loops
    rw [← hnew] at hphase
    refine ⟨?_, hphase, fun _ => hinit, h.stops⟩
    rw [hnew]
    rw [hcurrent] at halive
    simp only [Lifecycle.alive, List.countP_append, Bool.toNat_true, Bool.toNat_false] at halive ⊢
    exact Nat.add_le_add_right halive 1
  | launchRaises hpos =>
    rw [hpos] at hphase
    obtain ⟨hcurrent, hphase⟩ := hphase.launchRaises
    rw [hcurrent] at halive
    exact sound_returning halive (by rwa [started_concat]) h.launched h.stops (by simp)
  | setRunning hpos =>
    rw [hpos] at hphase
    exact sound_returning halive (by rw [started_concat]; exact hphase.setRunning) h.launched h.stops (by simp)
  | setEvent hpos =>
    rw [hpos] at hphase
    exact ⟨halive, hphase.setEvent, h.launched, h.stops⟩
  | joinNone hpos hthread =>
    rw [hpos] at hphase
    obtain ⟨⟨i, hstarted⟩, -⟩ := hphase.join
    cases hthread.symm.trans hstarted
  | joinRaises hpos hthread =>
    rw [hpos] at hphase
    obtain ⟨⟨i, hstarted⟩, -⟩ := hphase.join
    cases hthread.symm.trans hstarted
  | joined hpos hthread hleft =>
    rw [hpos] at hphase
    refine ⟨?_, hphase.join.2, h.launched, h.stops⟩
    have hcurrent : m.current = false := by simpa only [current, hthread] using hleft
    rw [hcurrent] at halive
    exact halive
  | joinTimesOut hpos hthread halive' =>
    rw [hpos] at hphase
    refine ⟨?_, hphase.join.2, h.launched, h.stops⟩
    have hcurrent : m.current = true := by simpa only [current, hthread] using halive'
    rw [hcurrent] at halive
    exact halive
  | clearRunning hpos =>
    rw [hpos] at hphase
    exact sound_returning halive (by rw [started_concat]; exact hphase.clearRunning) h.launched h.stops (by simp)
  | loop i now hloop => exact h.loop hloop

theorem Reachable.sound (h : Reachable uuid4 m) : m.Sound := by
  induction h with
  | refl => exact sound_construct
  | tail _ hs ih => exact ih.step hs

section reachable

open CoreSystem (registerSyscalls)

def serving (s : CoreSystem) (capabilities : Capabilities) : Lifecycle :=
  { construct with
    system := s
    capabilities
    initialized := true
    running := true
    schedulerThread := some (.started 0)
    loops := [.testing]
    log := [(.start, true)] }

theorem reachable_calls (calls : List Event) (hcalls : ∀ e ∈ calls, e.isCall = true) :
    Reachable uuid4 { construct with system := Run.final (CoreSystem.next uuid4) (registerSyscalls {}) calls } := by
  induction calls using List.reverseRecOn with
  | nil => exact .refl
  | append_singleton calls e ih =>
    have hcalls' := List.forall_mem_append.mp hcalls
    rw [Run.final_concat]
    cases e with
    | scheduler => cases hcalls'.2 _ (List.mem_singleton_self _)
    | syscall p n args timing => exact (ih hcalls'.1).tail (.syscall p n args timing)

theorem reachable_serving (calls : List Event) (hcalls : ∀ e ∈ calls, e.isCall = true) (capabilities : Capabilities)
    (now : ℕ → Float) : Reachable uuid4 (serving
      ((Run.final (CoreSystem.next uuid4) (registerSyscalls {}) calls).initializeTables now) capabilities) := by
  have h := @reachable_calls uuid4 calls hcalls
  have h := h.tail (.call .start (.detected capabilities) now rfl)
  have h := h.tail (.clearEvent rfl)
  have h := h.tail (.launch rfl)
  exact h.tail (.setRunning rfl)

theorem reachable_orderly (h : Reachable uuid4 m) : m.Orderly := h.sound.orderly

def relaunched : Lifecycle :=
  { serving (.initializeTables (registerSyscalls {}) Sample.timing.now) ⟨0, 0⟩ with
    schedulerThread := some (.started 1)
    loops := [.testing, .testing]
    log := [(.start, true), (.stop, true), (.start, true)]
    timeouts := 1 }

theorem reachable_relaunched : Reachable Sample.uuid4 relaunched := by
  have h := @reachable_serving Sample.uuid4 [] nofun ⟨0, 0⟩ Sample.timing.now
  have h := h.tail (.call .stop .importError Sample.timing.now rfl)
  have h := h.tail (.setEvent rfl)
  have h := h.tail (.joinTimesOut rfl rfl rfl)
  have h := h.tail (.clearRunning rfl)
  have h := h.tail (.call .start .importError Sample.timing.now rfl)
  have h := h.tail (.clearEvent rfl)
  have h := h.tail (.launch rfl)
  exact h.tail (.setRunning rfl)

theorem reachable_orderly_relaunched : relaunched.Orderly := reachable_orderly reachable_relaunched

end reachable

section drain

def LoopPosition.remaining : LoopPosition → ℕ
  | .passing => 3
  | .sleeping => 2
  | .testing => 1
  | .left => 0

def LoopPosition.pending : LoopPosition → ℕ
  | .passing => 1
  | _ => 0

def remaining (m : Lifecycle) : ℕ := (m.loops.map LoopPosition.remaining).sum

def pending (m : Lifecycle) : ℕ := (m.loops.map LoopPosition.pending).sum

def schedulerLoops : Lifecycle → List (ℕ × Float) → Option Lifecycle
  | m, [] => some m
  | m, (i, now) :: turns => (m.schedulerLoop i now).bind (·.schedulerLoops turns)

theorem sum_map_set {α : Type} (f : α → ℕ) {l : List α} {i : ℕ} {a : α} (h : l[i]? = some a) (b : α) :
    ((l.set i b).map f).sum + f a = (l.map f).sum + f b := by
  induction l generalizing i with
  | nil => simp at h
  | cons c l ih =>
    cases i with
    | zero =>
      obtain rfl : c = a := by simpa using h
      simp only [List.set_cons_zero, List.map_cons, List.sum_cons]
      omega
    | succ i =>
      have hi := ih (i := i) (by simpa using h)
      simp only [List.set_cons_succ, List.map_cons, List.sum_cons]
      omega

theorem schedulerLoop_stopping {i : ℕ} {now : Float} (hevent : m.stopEvent = true)
    (h : m.schedulerLoop i now = some m') :
    m'.stopEvent = true ∧ m'.remaining + 1 = m.remaining ∧
      ∃ times : List Float, m'.system = times.foldl CoreSystem.pass m.system ∧ m'.pending + times.length = m.pending := by
  unfold schedulerLoop at h
  split at h
  case h_1 hloop =>
    obtain rfl := Option.some.inj h
    rw [hevent, if_pos rfl]
    exact ⟨rfl, sum_map_set LoopPosition.remaining hloop .left,
      [], rfl, sum_map_set LoopPosition.pending hloop .left⟩
  case h_2 hloop =>
    obtain rfl := Option.some.inj h
    have hremaining := sum_map_set LoopPosition.remaining hloop .sleeping
    simp only [LoopPosition.remaining] at hremaining
    exact ⟨hevent, by simp only [remaining]; omega, [now], rfl, sum_map_set LoopPosition.pending hloop .sleeping⟩
  case h_3 hloop =>
    obtain rfl := Option.some.inj h
    have hremaining := sum_map_set LoopPosition.remaining hloop .testing
    simp only [LoopPosition.remaining] at hremaining
    exact ⟨hevent, by simp only [remaining]; omega, [], rfl, sum_map_set LoopPosition.pending hloop .testing⟩
  case h_4 => cases h

theorem schedulerLoop_of_alive {i : ℕ} (halive : aliveAt m.loops i = true) (now : Float) :
    ∃ m', m.schedulerLoop i now = some m' := by
  unfold schedulerLoop
  cases hloop : m.loops[i]? with
  | none => simp [aliveAt, hloop] at halive
  | some position =>
    cases position with
    | left => simp [aliveAt, hloop, LoopPosition.alive] at halive
    | _ => exact ⟨_, rfl⟩

theorem alive_eq_zero_iff : m.alive = 0 ↔ m.remaining = 0 := by
  simp only [alive, remaining, List.countP_eq_zero, List.sum_eq_zero_iff, List.forall_mem_map]
  refine forall₂_congr fun position _ => ?_
  cases position <;> simp [LoopPosition.alive, LoopPosition.remaining]

theorem schedulerLoops_stopping (hevent : m.stopEvent = true) {turns : List (ℕ × Float)}
    (h : m.schedulerLoops turns = some m') :
    turns.length + m'.remaining = m.remaining ∧
      ∃ times : List Float, m'.system = times.foldl CoreSystem.pass m.system ∧ m'.pending + times.length = m.pending := by
  induction turns generalizing m with
  | nil =>
    obtain rfl := Option.some.inj h
    exact ⟨Nat.zero_add _, [], rfl, rfl⟩
  | cons turn turns ih =>
    obtain ⟨m₁, hturn, hturns⟩ := Option.bind_eq_some_iff.mp h
    obtain ⟨hevent₁, hremaining, times, hsystem, hpending⟩ := schedulerLoop_stopping hevent hturn
    obtain ⟨hremaining', times', hsystem', hpending'⟩ := ih hevent₁ hturns
    refine ⟨by rw [List.length_cons]; omega, times ++ times', ?_, by rw [List.length_append]; omega⟩
    rw [hsystem', hsystem, List.foldl_append]

theorem schedulerLoops_concat (turns : List (ℕ × Float)) (turn : ℕ × Float) :
    m.schedulerLoops (turns ++ [turn]) = (m.schedulerLoops turns).bind (·.schedulerLoop turn.1 turn.2) := by
  induction turns generalizing m with
  | nil => simp [schedulerLoops]
  | cons d turns ih =>
    simp only [List.cons_append, schedulerLoops, Option.bind_assoc]
    congr 1
    funext m₁
    exact ih

structure Drains (m : Lifecycle) (turns : List (ℕ × Float)) (m' : Lifecycle) : Prop where
  within : turns.length ≤ m.remaining
  finished_iff : m'.alive = 0 ↔ turns.length = m.remaining
  continues : turns.length < m.remaining → ∃ i, ∀ now, (m.schedulerLoops (turns ++ [(i, now)])).isSome = true
  passes : ∃ times : List Float, m'.system = times.foldl CoreSystem.pass m.system ∧ m'.pending + times.length = m.pending

theorem stop_drains (hevent : m.stopEvent = true) (turns : List (ℕ × Float)) (hm : m.schedulerLoops turns = some m') :
    Drains m turns m' := by
  obtain ⟨hremaining, hpasses⟩ := schedulerLoops_stopping hevent hm
  refine ⟨by omega, by rw [alive_eq_zero_iff]; omega, fun hlt => ?_, hpasses⟩
  have halive : 0 < m'.alive := by
    rw [Nat.pos_iff_ne_zero, Ne, alive_eq_zero_iff]
    omega
  obtain ⟨position, hmem, hposition⟩ := List.countP_pos_iff.mp halive
  obtain ⟨i, hi⟩ := List.mem_iff_getElem?.mp hmem
  refine ⟨i, fun now => ?_⟩
  obtain ⟨m₁, hnext⟩ := schedulerLoop_of_alive (m := m') (i := i) (by simpa [aliveAt, hi] using hposition) now
  rw [schedulerLoops_concat, hm, Option.bind_some, hnext]
  rfl

theorem stop_drains_relaunched :
    Drains { relaunched with stopEvent := true } [(1, 0), (0, 0)]
      { relaunched with stopEvent := true, loops := [.left, .left] } :=
  stop_drains rfl [(1, 0), (0, 0)] rfl

end drain

section sequential

open CoreSystem (registerSyscalls)

inductive Sequential (uuid4 : ℕ → String) : Bool → CoreSystem → Prop
  | before (calls : List Event) (hcalls : ∀ e ∈ calls, e.isCall = true) :
      Sequential uuid4 false (Run.final (CoreSystem.next uuid4) (registerSyscalls {}) calls)
  | after (calls : List Event) (hcalls : ∀ e ∈ calls, e.isCall = true) (now : ℕ → Float) (es : List Event) :
      Sequential uuid4 true (Run.final (CoreSystem.next uuid4)
        ((Run.final (CoreSystem.next uuid4) (registerSyscalls {}) calls).initializeTables now) es)

variable {s : CoreSystem} {b : Bool}

theorem Sequential.next (h : Sequential uuid4 b s) {e : Event} (he : b = true ∨ e.isCall = true) :
    Sequential uuid4 b (s.next uuid4 e) := by
  cases h with
  | before calls hcalls =>
    rw [← @Run.final_concat _ _ (CoreSystem.next uuid4)]
    refine .before _ fun d hd => ?_
    rcases List.mem_append.mp hd with hd | hd
    · exact hcalls d hd
    · rw [List.mem_singleton.mp hd]
      exact he.resolve_left (by decide)
  | after calls hcalls now es =>
    rw [← @Run.final_concat _ _ (CoreSystem.next uuid4)]
    exact .after calls hcalls now _

theorem Sequential.initialized (h : Sequential uuid4 false s) (now : ℕ → Float) :
    Sequential uuid4 true (s.initializeTables now) := by
  cases h with
  | before calls hcalls => exact .after calls hcalls now []

theorem Sequential.initializeSystem (h : Sequential uuid4 m.initialized m.system) (detection : Detection)
    (now : ℕ → Float) : Sequential uuid4 (m.initializeSystem detection now).1.initialized
      (m.initializeSystem detection now).1.system := by
  obtain ⟨system, capabilities, init, heq, htrue, hfalse⟩ := m.initializeSystem_cases detection now
  rw [heq]
  dsimp only
  cases hinit : m.initialized with
  | true =>
    obtain ⟨rfl, rfl⟩ := htrue hinit
    rwa [hinit] at h
  | false =>
    obtain rfl := hfalse hinit
    rw [hinit] at h
    cases init with
    | true => exact h.initialized now
    | false => exact h

theorem Reachable.sequential (h : Reachable uuid4 m) : Sequential uuid4 m.initialized m.system := by
  induction h with
  | refl => exact .before [] nofun
  | @tail m m' hreach hs ih =>
    cases hs with
    | syscall p n args timing => exact ih.next (e := .syscall p n args timing) (.inr rfl)
    | call call detection now hidle =>
      have hinit := ih.initializeSystem detection now
      cases call with
      | initializeSystem => exact hinit
      | start =>
        unfold Lifecycle.call
        dsimp only
        split_ifs
        all_goals exact hinit
      | stop =>
        unfold Lifecycle.call
        dsimp only
        split_ifs
        all_goals exact ih
    | loop i now hloop =>
      obtain ⟨position, position', system, hi, -, -, hsystem, rfl⟩ := schedulerLoop_cases hloop
      have hinit := (Reachable.sound hreach).launched (List.ne_nil_of_mem (List.mem_of_getElem? hi))
      rcases hsystem with rfl | rfl
      · exact ih
      · exact ih.next (e := .scheduler now) (.inl hinit)
    | _ => exact ih

theorem reachable_next {capabilities : Capabilities} (h : Reachable uuid4 (serving s capabilities)) (e : Event) :
    Reachable uuid4 (serving (s.next uuid4 e) capabilities) := by
  cases e with
  | syscall p n args timing => exact h.tail (.syscall p n args timing)
  | scheduler now =>
    have h := h.tail (.loop 0 now rfl)
    have h := h.tail (.loop 0 now rfl)
    exact h.tail (.loop 0 now rfl)

theorem systems_sequential (uuid4 : ℕ → String) (b : Bool) (s : CoreSystem) :
    (∃ m, Reachable uuid4 m ∧ m.initialized = b ∧ m.system = s) ↔ Sequential uuid4 b s := by
  constructor
  · rintro ⟨m, hm, rfl, rfl⟩
    exact hm.sequential
  · intro h
    cases h with
    | before calls hcalls => exact ⟨_, reachable_calls calls hcalls, rfl, rfl⟩
    | after calls hcalls now es =>
      refine ⟨serving _ ⟨0, 0⟩, ?_, rfl, rfl⟩
      exact Run.invariant (P := fun s => Reachable uuid4 (serving s ⟨0, 0⟩)) (fun _ e h => reachable_next h e)
        (reachable_serving calls hcalls ⟨0, 0⟩ now) es

end sequential

end Lifecycle

end TrinityOS
