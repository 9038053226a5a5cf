import Mathlib.Data.List.Induction
import Mathlib.Logic.Relation
import TrinityOS.Core.CoreSystem

namespace TrinityOS.Core

variable {τ : Type}

inductive Call (τ : Type) where
  | start
  | stop
  | addProcess (task : Option τ) (priority : ℤ) (name : String)

def started (calls : List (Call τ)) : Bool :=
  calls.foldl (fun started call =>
    match call with
    | .start => true
    | .stop => false
    | .addProcess _ _ _ => started) false

inductive Statement (τ : Type) where
  | action (action : Action τ)
  | destroyThread

def Call.statements : Call τ → List (Statement τ)
  | .start => [.action .setRunning, .action .launch]
  | .stop => [.action .clearRunning, .action .join]
  | .addProcess task priority name => [.action (.addProcess task priority name)]

def SchedulerThread.joinable : SchedulerThread τ → Bool
  | .notJoinable => false
  | _ => true

def SchedulerThread.alive : SchedulerThread τ → ℕ
  | .notJoinable | .finished => 0
  | _ => 1

def Event.isExit : Event τ → Bool
  | .exited => true
  | _ => false

/-- One `CoreSystem` and the thread that calls it: `todo` is what is left of the call that was
begun last, `threads` counts the threads that were created and have not left `schedulerLoop`,
and `aborted` says that `std::terminate` was called. -/
structure Lifetime (τ : Type) where
  system : CoreSystem τ
  begun : List (Call τ)
  todo : List (Statement τ)
  upcoming : List (Call τ)
  destroyed : Bool
  threads : ℕ
  aborted : Bool

namespace Lifetime

def construct (calls : List (Call τ)) : Lifetime τ := ⟨.initial, [], [], calls, false, 0, false⟩

def client (m : Lifetime τ) : Option (Lifetime τ) :=
  match m.todo with
  | [] =>
    match m.upcoming with
    | call :: calls => some { m with begun := m.begun ++ [call], todo := call.statements, upcoming := calls }
    | [] =>
      -- the destructor calls `stop`; then the members are destroyed
      if m.destroyed then none
      else some { m with
        begun := m.begun ++ [.stop]
        todo := Call.stop.statements ++ [.destroyThread]
        destroyed := true }
  | .action .launch :: rest =>
    -- the new thread exists before it is assigned
    let m := { m with todo := rest, threads := m.threads + 1 }
    match m.system.launch with
    | some system => some { m with system }
    | none => some { m with aborted := true }
  | .action action :: rest => (m.system.step action).map fun r => { m with system := r.1, todo := rest }
  | .destroyThread :: rest => some { m with todo := rest, aborted := m.system.schedulerThread.joinable }

def scheduler (m : Lifetime τ) : Option (Lifetime τ) :=
  m.system.schedulerLoop.map fun r =>
    { m with system := r.1, threads := m.threads - r.2.countP Event.isExit }

inductive Step (m : Lifetime τ) : Lifetime τ → Prop
  | client {m'} (ha : m.aborted = false) (h : m.client = some m') : Step m m'
  | scheduler {m'} (ha : m.aborted = false) (h : m.scheduler = some m') : Step m m'

def Reachable (calls : List (Call τ)) (m : Lifetime τ) : Prop :=
  Relation.ReflTransGen Step (construct calls) m

structure Safe (m : Lifetime τ) : Prop where
  not_aborted : m.aborted = false
  one_thread : m.threads ≤ 1
  running : started m.begun = true → .action .launch ∉ m.todo →
    m.system.running = true ∧ m.threads = 1 ∧ m.system.schedulerThread.alive = 1

variable {m m' : Lifetime τ} {calls : List (Call τ)}

theorem started_concat (call : Call τ) : started (calls ++ [call]) =
    match call with
    | .start => true
    | .stop => false
    | .addProcess _ _ _ => started calls := by
  rw [started, List.foldl_append]
  rfl

inductive Phase : List (Statement τ) → Bool → SchedulerThread τ → Bool → Prop
  | idle {todo running} (htodo : todo = [] ∨ ∃ task priority name, todo = [.action (.addProcess task priority name)]) :
      Phase todo false .notJoinable running
  | active {todo thread} (htodo : todo = [] ∨ ∃ task priority name, todo = [.action (.addProcess task priority name)])
      (halive : thread.alive = 1) : Phase todo true thread true
  | starting {running} : Phase [.action .setRunning, .action .launch] true .notJoinable running
  | launching : Phase [.action .launch] true .notJoinable true
  | stopping {rest thread running} (hrest : rest = [] ∨ rest = [.destroyThread]) :
      Phase (.action .clearRunning :: .action .join :: rest) false thread running
  | joining {rest thread running} (hrest : rest = [] ∨ rest = [.destroyThread]) :
      Phase (.action .join :: rest) false thread running
  | destroying {running} : Phase [.destroyThread] false .notJoinable running

structure Sound (calls : List (Call τ)) (m : Lifetime τ) : Prop where
  not_aborted : m.aborted = false
  split : m.destroyed = false → m.begun ++ m.upcoming = calls
  ended : m.destroyed = true → m.upcoming = []
  threads_eq : m.threads = m.system.schedulerThread.alive
  phase : Phase m.todo (started m.begun) m.system.schedulerThread m.system.running

theorem Sound.safe (h : m.Sound calls) : m.Safe := by
  constructor
  · exact h.not_aborted
  · rw [h.threads_eq]
    cases m.system.schedulerThread <;> simp [SchedulerThread.alive]
  · intro hstarted hlaunch
    rw [h.threads_eq]
    have hphase := h.phase
    rw [hstarted] at hphase
    generalize m.todo = todo at hphase hlaunch
    generalize m.system.schedulerThread = thread at hphase ⊢
    generalize m.system.running = running at hphase ⊢
    cases hphase with
    | active _ halive => exact ⟨rfl, halive, halive⟩
    | starting => simp at hlaunch
    | launching => simp at hlaunch

theorem sound_construct (calls : List (Call τ)) : (construct calls).Sound calls := by
  constructor
  · rfl
  · intro _
    rfl
  · intro h
    cases h
  · rfl
  · exact .idle (.inl rfl)

theorem schedulerLoop_thread {s s' : CoreSystem τ} {new : List (Event τ)} (h : s.schedulerLoop = some (s', new)) :
    s'.running = s.running ∧ s.schedulerThread.alive = 1 ∧
      s'.schedulerThread.alive = s.schedulerThread.alive - new.countP Event.isExit ∧
      (s.running = true → s'.schedulerThread.alive = 1) := by
  unfold CoreSystem.schedulerLoop at h
  cases hthread : s.schedulerThread with
  | notJoinable => simp [hthread] at h
  | finished => simp [hthread] at h
  | waiting =>
    simp only [hthread] at h
    cases hqueue : s.readyQueue with
    | nil =>
      simp only [hqueue] at h
      cases hrunning : s.running with
      | true => simp [hrunning] at h
      | false =>
        simp only [hrunning, Bool.false_eq_true, ↓reduceIte, Option.some.injEq, Prod.mk.injEq] at h
        obtain ⟨rfl, rfl⟩ := h
        simp [SchedulerThread.alive, Event.isExit]
    | cons proc rest =>
      simp only [hqueue, Option.some.injEq, Prod.mk.injEq] at h
      obtain ⟨rfl, rfl⟩ := h
      simp [SchedulerThread.alive, Event.isExit]
  | selected proc =>
    simp only [hthread, Option.some.injEq, Prod.mk.injEq] at h
    obtain ⟨rfl, rfl⟩ := h
    cases proc.task <;> simp [SchedulerThread.alive, Event.isExit]
  | executing proc =>
    simp only [hthread, Option.some.injEq, Prod.mk.injEq] at h
    obtain ⟨rfl, rfl⟩ := h
    simp [SchedulerThread.alive, Event.isExit]

theorem Phase.scheduler {todo : List (Statement τ)} {st running : Bool} {thread thread' : SchedulerThread τ}
    (h : Phase todo st thread running) (halive : thread.alive = 1) (hrun : running = true → thread'.alive = 1) :
    Phase todo st thread' running := by
  cases h with
  | idle | starting | launching | destroying => simp [SchedulerThread.alive] at halive
  | active htodo => exact .active htodo (hrun rfl)
  | stopping hrest => exact .stopping hrest
  | joining hrest => exact .joining hrest

theorem Sound.scheduler (h : m.Sound calls) (hs : m.scheduler = some m') : m'.Sound calls := by
  obtain ⟨⟨system, new⟩, hloop, rfl⟩ := Option.map_eq_some_iff.mp hs
  obtain ⟨hrunning, halive, hexit, hrun⟩ := schedulerLoop_thread hloop
  refine ⟨h.not_aborted, h.split, h.ended, ?_, ?_⟩
  · change m.threads - _ = _
    rw [h.threads_eq, hexit]
  · change Phase m.todo (started m.begun) system.schedulerThread system.running
    rw [hrunning]
    exact h.phase.scheduler halive hrun

theorem Phase.thread_of_idle {running : Bool} {thread : SchedulerThread τ} (h : Phase [] false thread running) :
    thread = .notJoinable := by
  cases h with
  | idle => rfl

theorem Phase.adding {st running : Bool} {thread : SchedulerThread τ} (h : Phase [] st thread running)
    (task : Option τ) (priority : ℤ) (name : String) :
    Phase [.action (.addProcess task priority name)] st thread running := by
  cases h with
  | idle => exact .idle (.inr ⟨task, priority, name, rfl⟩)
  | active _ halive => exact .active (.inr ⟨task, priority, name, rfl⟩) halive

def StartsApart (calls : List (Call τ)) : Prop := ∀ pre, pre ++ [.start] <+: calls → started pre = false

theorem Sound.begins (h : m.Sound calls) (hapart : StartsApart calls) (htodo : m.todo = [])
    (hs : m.client = some m') : m'.Sound calls := by
  have hphase := h.phase
  unfold client at hs
  rw [htodo] at hs hphase
  cases hup : m.upcoming with
  | nil =>
    simp only [hup] at hs
    split at hs
    · cases hs
    · obtain rfl := Option.some.inj hs
      refine ⟨h.not_aborted, fun hd => ?_, fun _ => rfl, h.threads_eq, ?_⟩
      · cases hd
      rw [started_concat]
      exact .stopping (.inr rfl)
  | cons call upcoming =>
    simp only [hup] at hs
    obtain rfl := Option.some.inj hs
    have halive : m.destroyed = false := by
      by_contra hd
      rw [h.ended (by simpa using hd)] at hup
      cases hup
    have hsplit := h.split halive
    rw [hup] at hsplit
    refine ⟨h.not_aborted, fun _ => ?_, fun hd => ?_, h.threads_eq, ?_⟩
    · rw [← hsplit]
      simp
    · exact absurd (hd.symm.trans halive) (by decide)
    · rw [started_concat]
      cases call with
      | start =>
        have hst : started m.begun = false := by
          apply hapart
          exact ⟨upcoming, by rw [← hsplit]; simp⟩
        rw [hst] at hphase
        change Phase _ _ m.system.schedulerThread _
        rw [hphase.thread_of_idle]
        exact .starting
      | stop => exact .stopping (.inl rfl)
      | addProcess task priority name => exact hphase.adding task priority name

theorem join_thread {s s' : CoreSystem τ} {new : List (Event τ)} (h : s.step .join = some (s', new)) :
    s'.schedulerThread = .notJoinable ∧ s'.running = s.running ∧
      s.schedulerThread.alive = s'.schedulerThread.alive := by
  obtain ⟨t, ht, heq⟩ := Option.map_eq_some_iff.mp h
  obtain ⟨rfl, rfl⟩ := Prod.mk.inj heq
  unfold CoreSystem.join at ht
  split at ht
  case h_1 hthread =>
    obtain rfl := Option.some.inj ht
    exact ⟨hthread, rfl, rfl⟩
  case h_2 hthread =>
    obtain rfl := Option.some.inj ht
    rw [hthread]
    exact ⟨rfl, rfl, rfl⟩
  case h_3 => cases ht

theorem Sound.client (h : m.Sound calls) (hapart : StartsApart calls) (hs : m.client = some m') :
    m'.Sound calls := by
  by_cases htodo : m.todo = []
  · exact h.begins hapart htodo hs
  · obtain ⟨⟨queue, thread, running, nextPid, states⟩, begun, todo, upcoming, destroyed, threads, aborted⟩ := m
    obtain ⟨haborted, hsplit, hended, hthreads, hphase⟩ := h
    dsimp only at haborted hsplit hended hthreads hphase htodo
    generalize hst : started begun = st at hphase
    cases hphase with
    | idle hcall =>
      obtain ⟨task, priority, name, rfl⟩ := hcall.resolve_left htodo
      obtain rfl := Option.some.inj hs
      refine ⟨haborted, hsplit, hended, hthreads, ?_⟩
      change Phase [] (started begun) .notJoinable running
      rw [hst]
      exact .idle (.inl rfl)
    | active hcall halive =>
      obtain ⟨task, priority, name, rfl⟩ := hcall.resolve_left htodo
      obtain rfl := Option.some.inj hs
      refine ⟨haborted, hsplit, hended, hthreads, ?_⟩
      change Phase [] (started begun) thread true
      rw [hst]
      exact .active (.inl rfl) halive
    | starting =>
      obtain rfl := Option.some.inj hs
      refine ⟨haborted, hsplit, hended, hthreads, ?_⟩
      change Phase [.action .launch] (started begun) .notJoinable true
      rw [hst]
      exact .launching
    | launching =>
      obtain rfl := Option.some.inj hs
      refine ⟨haborted, hsplit, hended, congrArg (· + 1) hthreads, ?_⟩
      change Phase [] (started begun) .waiting true
      rw [hst]
      exact .active (.inl rfl) rfl
    | @stopping rest _ _ hrest =>
      obtain rfl := Option.some.inj hs
      refine ⟨haborted, hsplit, hended, hthreads, ?_⟩
      change Phase (.action .join :: rest) (started begun) thread false
      rw [hst]
      exact .joining hrest
    | @joining rest _ _ hrest =>
      obtain ⟨⟨system, new⟩, hstep, rfl⟩ := Option.map_eq_some_iff.mp hs
      obtain ⟨hjoined, hrunning, halive⟩ := join_thread hstep
      refine ⟨haborted, hsplit, hended, hthreads.trans halive, ?_⟩
      change Phase rest (started begun) system.schedulerThread system.running
      rw [hst, hjoined]
      rcases hrest with rfl | rfl
      · exact .idle (.inl rfl)
      · exact .destroying
    | destroying =>
      obtain rfl := Option.some.inj hs
      refine ⟨rfl, hsplit, hended, hthreads, ?_⟩
      change Phase [] (started begun) .notJoinable running
      rw [hst]
      exact .idle (.inl rfl)

theorem Reachable.sound (hapart : StartsApart calls) (h : Reachable calls m) : m.Sound calls := by
  induction h with
  | refl => exact sound_construct calls
  | tail _ hstep ih =>
    cases hstep with
    | client _ hs => exact ih.client hapart hs
    | scheduler _ hs => exact ih.scheduler hs

section drain

def work (s : CoreSystem τ) : ℕ :=
  3 * s.readyQueue.length + match s.schedulerThread with
    | .notJoinable | .finished => 0
    | .waiting => 1
    | .executing _ => 2
    | .selected _ => 3

theorem schedulerLoop_works {s : CoreSystem τ} (hrunning : s.running = false) (halive : s.schedulerThread.alive = 1) :
    ∃ s' new, s.schedulerLoop = some (s', new) ∧ s'.running = false ∧ work s' < work s := by
  unfold CoreSystem.schedulerLoop
  cases hthread : s.schedulerThread with
  | notJoinable | finished =>
    rw [hthread] at halive
    cases halive
  | waiting =>
    cases hqueue : s.readyQueue with
    | nil =>
      simp only [hrunning, Bool.false_eq_true, ↓reduceIte]
      exact ⟨_, _, rfl, rfl, by simp [work, hthread]⟩
    | cons proc rest =>
      refine ⟨_, _, rfl, hrunning, ?_⟩
      simp only [work, hthread, hqueue, List.length_cons]
      omega
  | selected proc => exact ⟨_, _, rfl, hrunning, by simp [work, hthread]⟩
  | executing proc => exact ⟨_, _, rfl, hrunning, by simp [work, hthread]⟩

theorem drain (n : ℕ) (ha : m.aborted = false) (hrunning : m.system.running = false) (hn : work m.system ≤ n) :
    ∃ system threads, Relation.ReflTransGen Step m { m with system, threads } ∧
      system.schedulerThread.alive = 0 := by
  induction n generalizing m with
  | zero =>
    refine ⟨m.system, m.threads, .refl, ?_⟩
    cases hthread : m.system.schedulerThread with
    | notJoinable | finished => rfl
    | _ => simp [work, hthread] at hn
  | succ n ih =>
    by_cases halive : m.system.schedulerThread.alive = 1
    · obtain ⟨s', new, hloop, hrunning', hwork⟩ := schedulerLoop_works hrunning halive
      have hstep : Step m { m with system := s', threads := m.threads - new.countP Event.isExit } := by
        apply Step.scheduler ha
        rw [scheduler, hloop]
        rfl
      obtain ⟨system, threads, hsteps, hdone⟩ := ih (m := { m with
        system := s', threads := m.threads - new.countP Event.isExit }) ha hrunning' (by change work s' ≤ n; omega)
      exact ⟨system, threads, .head hstep hsteps, hdone⟩
    · refine ⟨m.system, m.threads, .refl, ?_⟩
      cases hthread : m.system.schedulerThread with
      | notJoinable | finished => rfl
      | _ => simp [SchedulerThread.alive, hthread] at halive

end drain

theorem Reachable.client (h : Reachable calls m) (ha : m.aborted = false) (hs : m.client = some m') :
    Reachable calls m' := Relation.ReflTransGen.tail h (.client ha hs)

theorem launch_of_joinable {s : CoreSystem τ} {running : Bool} (h : s.schedulerThread ≠ .notJoinable) :
    ({ s with running } : CoreSystem τ).launch = none := by
  unfold CoreSystem.launch
  split
  · contradiction
  · rfl

theorem join_of_not_alive {s : CoreSystem τ} (h : s.schedulerThread.alive = 0) : ∃ s', s.join = some s' := by
  unfold CoreSystem.join
  cases hthread : s.schedulerThread with
  | notJoinable | finished => exact ⟨_, rfl⟩
  | _ => simp [SchedulerThread.alive, hthread] at h

theorem reaches_calls (hsafe : ∀ m, Reachable calls m → m.aborted = false) (pre : List (Call τ)) :
    ∀ rest, pre ++ rest = calls →
      ∃ m, Reachable calls m ∧ m.begun = pre ∧ m.upcoming = rest ∧ m.todo = [] := by
  induction pre using List.reverseRecOn with
  | nil =>
    rintro rest rfl
    exact ⟨construct rest, .refl, rfl, rfl, rfl⟩
  | append_singleton pre call ih =>
    intro rest hrest
    rw [List.append_assoc] at hrest
    obtain ⟨m, hm, hbegun, hup, htodo⟩ := ih _ hrest
    have ha := hsafe m hm
    let m₁ : Lifetime τ := { m with begun := m.begun ++ [call], todo := call.statements, upcoming := rest }
    have hm₁ : Reachable calls m₁ := by
      apply hm.client ha
      simp [client, htodo, hup, m₁]
    have hbegun₁ : m₁.begun = pre ++ [call] := congrArg (· ++ [call]) hbegun
    cases call with
    | addProcess task priority name => exact ⟨_, hm₁.client ha rfl, hbegun₁, rfl, rfl⟩
    | start =>
      have hm₂ : Reachable calls
          { m₁ with system := { m.system with running := true }, todo := [.action .launch] } := hm₁.client ha rfl
      by_cases hthread : m.system.schedulerThread = .notJoinable
      · have hlaunch : ({ m.system with running := true } : CoreSystem τ).launch =
            some { m.system with running := true, schedulerThread := .waiting } := by
          simp [CoreSystem.launch, hthread]
        refine ⟨{ m₁ with
          system := { m.system with running := true, schedulerThread := .waiting }
          todo := []
          threads := m.threads + 1 }, hm₂.client ha ?_, hbegun₁, rfl, rfl⟩
        rw [Lifetime.client]
        simp only [hlaunch]
        rfl
      · have hm₃ : Reachable calls { m₁ with
            system := { m.system with running := true }, todo := [], threads := m.threads + 1, aborted := true } := by
          apply hm₂.client ha
          rw [Lifetime.client]
          simp only [launch_of_joinable hthread]
          rfl
        cases hsafe _ hm₃
    | stop =>
      have hm₂ : Reachable calls
          { m₁ with system := { m.system with running := false }, todo := [.action .join] } := hm₁.client ha rfl
      obtain ⟨system, threads, hsteps, hdone⟩ := drain (m := { m₁ with
        system := { m.system with running := false }, todo := [.action .join] }) _ ha rfl (Nat.le_refl _)
      have hm₃ : Reachable calls { m₁ with system, threads, todo := [.action .join] } := hm₂.trans hsteps
      obtain ⟨system', hjoin⟩ := join_of_not_alive hdone
      refine ⟨{ m₁ with system := system', threads, todo := [] }, hm₃.client ha ?_, hbegun₁, rfl, rfl⟩
      simp [Lifetime.client, CoreSystem.step, hjoin]

theorem lifecycle_safe_iff (calls : List (Call τ)) :
    (∀ m, Reachable calls m → m.Safe) ↔ StartsApart calls := by
  constructor
  · rintro hsafe pre ⟨rest, hcalls⟩
    have halive : ∀ m, Reachable calls m → m.aborted = false := fun m hm => (hsafe m hm).not_aborted
    rw [List.append_assoc] at hcalls
    obtain ⟨m, hm, hbegun, hup, htodo⟩ := reaches_calls halive pre _ hcalls
    by_contra hstarted
    rw [Bool.not_eq_false, ← hbegun] at hstarted
    have hthread := ((hsafe m hm).running hstarted (by simp [htodo])).2.2
    have hjoinable : m.system.schedulerThread ≠ .notJoinable := by
      intro h
      rw [h] at hthread
      cases hthread
    have ha := halive m hm
    have hm₁ : Reachable calls
        { m with begun := m.begun ++ [.start], todo := Call.start.statements, upcoming := rest } := by
      apply hm.client ha
      simp [Lifetime.client, htodo, hup]
    have hm₂ := hm₁.client ha rfl
    have hm₃ : Reachable calls { m with
        system := { m.system with running := true }
        begun := m.begun ++ [.start]
        todo := []
        upcoming := rest
        threads := m.threads + 1
        aborted := true } := by
      apply hm₂.client ha
      rw [Lifetime.client]
      simp only [launch_of_joinable hjoinable]
    cases halive _ hm₃
  · intro hapart m hm
    exact (hm.sound hapart).safe

theorem start_twice_aborts :
    ¬ ∀ m, Reachable ([.start, .start] : List (Call Unit)) m → m.Safe := by
  intro hsafe
  have hm : Reachable ([.start, .start] : List (Call Unit)) (construct [.start, .start]) := .refl
  have hm := hm.client rfl rfl
  have hm := hm.client rfl rfl
  have hm := hm.client rfl rfl
  have hm := hm.client rfl rfl
  have hm := hm.client rfl rfl
  have hm := hm.client rfl rfl
  cases (hsafe _ hm).not_aborted

end Lifetime

end TrinityOS.Core
