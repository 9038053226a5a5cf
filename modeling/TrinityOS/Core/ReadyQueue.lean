import TrinityOS.StableSort
import TrinityOS.Core.CoreSystem

namespace TrinityOS.Core

variable {τ : Type} {es new : List (Event τ)} {s s' : CoreSystem τ} {action : Action τ} {proc : Process τ}

theorem added_append : added (es ++ new) = added es ++ added new := List.filterMap_append

theorem takenPids_append : takenPids (es ++ new) = takenPids es ++ takenPids new := List.filterMap_append

theorem pending_of_quiet (hadded : added new = []) (htaken : takenPids new = []) :
    pending (es ++ new) = pending es := by
  simp only [pending, added_append, takenPids_append, hadded, htaken, List.append_nil]

theorem pending_added (hnew : proc.pid ∉ takenPids es) :
    pending (es ++ [.added proc]) = pending es ++ [proc] := by
  have hadded : added [Event.added proc] = [proc] := rfl
  have htaken : takenPids [Event.added proc] = [] := rfl
  simp only [pending, added_append, takenPids_append, hadded, htaken, List.append_nil, List.filter_append]
  rw [List.filter_cons_of_pos (by simpa using hnew), List.filter_nil]

theorem pending_taken : pending (es ++ [.taken proc]) = (pending es).filter (fun q => q.pid ≠ proc.pid) := by
  have hadded : added [Event.taken proc] = [] := rfl
  have htaken : takenPids [Event.taken proc] = [proc.pid] := rfl
  simp only [pending, added_append, takenPids_append, hadded, htaken, List.append_nil, List.filter_filter]
  apply List.filter_congr
  intro q _
  simp [and_comm]

theorem pending_sublist : (pending es).Sublist (added es) := List.filter_sublist

structure Queued (es : List (Event τ)) (s : CoreSystem τ) : Prop where
  sorted : StablySorted Process.priority (pending es) s.readyQueue
  increasing : (added es).Pairwise (fun p q => p.pid < q.pid)
  added_below : ∀ proc ∈ added es, proc.pid < s.nextPid
  taken_below : ∀ pid ∈ takenPids es, pid < s.nextPid

namespace Queued

theorem pending_increasing (h : Queued es s) : (pending es).Pairwise (fun p q => p.pid < q.pid) :=
  h.increasing.sublist pending_sublist

theorem mem_readyQueue (h : Queued es s) : proc ∈ s.readyQueue ↔ proc ∈ pending es := h.sorted.perm.mem_iff

theorem pids_nodup (h : Queued es s) : (s.readyQueue.map (·.pid)).Nodup := by
  have hperm := h.sorted.perm.map (fun p => p.pid)
  rw [hperm.nodup_iff]
  apply List.Pairwise.map _ _ h.pending_increasing
  intro p q hpq
  exact hpq.ne

theorem ne_of_mem_rest {rest : List (Process τ)} {other : Process τ} (h : Queued es s)
    (hqueue : s.readyQueue = proc :: rest) (hother : other ∈ rest) : other.pid ≠ proc.pid := by
  have hnodup := h.pids_nodup
  rw [hqueue, List.map_cons, List.nodup_cons] at hnodup
  intro heq
  exact hnodup.1 (List.mem_map.mpr ⟨other, hother, heq⟩)

theorem of_quiet (h : Queued es s) (hqueue : s'.readyQueue = s.readyQueue) (hpid : s'.nextPid = s.nextPid)
    (hadded : added new = []) (htaken : takenPids new = []) : Queued (es ++ new) s' := by
  constructor
  · rw [pending_of_quiet hadded htaken, hqueue]
    exact h.sorted
  · rw [added_append, hadded, List.append_nil]
    exact h.increasing
  · rw [added_append, hadded, List.append_nil, hpid]
    exact h.added_below
  · rw [takenPids_append, htaken, List.append_nil, hpid]
    exact h.taken_below

theorem add (h : Queued es s) (task : Option τ) (priority : ℤ) (name : String) :
    Queued (es ++ [.added (s.addProcess task priority name).2]) (s.addProcess task priority name).1 := by
  have hnew : s.nextPid ∉ takenPids es := by
    intro hmem
    exact absurd (h.taken_below s.nextPid hmem) (lt_irrefl s.nextPid)
  have hadded : added [Event.added (s.addProcess task priority name).2] = [(s.addProcess task priority name).2] := rfl
  constructor
  · rw [pending_added hnew]
    exact h.sorted.insert (s.addProcess task priority name).2
  · rw [added_append, hadded]
    apply List.pairwise_append.mpr
    refine ⟨h.increasing, List.pairwise_singleton _ _, ?_⟩
    intro p hp q hq
    obtain rfl := List.mem_singleton.mp hq
    exact h.added_below p hp
  · rw [added_append, hadded]
    intro p hp
    change p.pid < s.nextPid + 1
    rcases List.mem_append.mp hp with hp | hp
    · have hlt := h.added_below p hp
      omega
    · obtain rfl := List.mem_singleton.mp hp
      change s.nextPid < s.nextPid + 1
      omega
  · rw [takenPids_append]
    intro pid hpid
    rw [show takenPids [Event.added (s.addProcess task priority name).2] = [] from rfl, List.append_nil] at hpid
    have hlt := h.taken_below pid hpid
    change pid < s.nextPid + 1
    omega

theorem take {rest : List (Process τ)} (h : Queued es s) (hqueue : s.readyQueue = proc :: rest)
    (hrest : s'.readyQueue = rest) (hpid : s'.nextPid = s.nextPid) :
    Queued (es ++ [.taken { proc with state := .running }]) s' := by
  have hfront : proc ∈ added es := by
    have hmem : proc ∈ s.readyQueue := by simp [hqueue]
    exact pending_sublist.subset (h.mem_readyQueue.mp hmem)
  constructor
  · rw [pending_taken, hrest]
    have hsorted := h.sorted.filter (fun q => q.pid ≠ proc.pid)
    have hleft : (proc :: rest).filter (fun q => q.pid ≠ proc.pid) = rest := by
      rw [List.filter_cons_of_neg (by simp)]
      apply List.filter_eq_self.mpr
      intro q hq
      simpa using h.ne_of_mem_rest hqueue hq
    rwa [hqueue, hleft] at hsorted
  · rw [added_append]
    simpa [added] using h.increasing
  · rw [added_append, hpid]
    simpa [added] using h.added_below
  · rw [takenPids_append, hpid]
    intro pid hmem
    rcases List.mem_append.mp hmem with hmem | hmem
    · exact h.taken_below pid hmem
    · obtain rfl := List.mem_singleton.mp hmem
      exact h.added_below proc hfront

theorem transition (h : Queued es s) (ht : Transition s s' new) : Queued (es ++ new) s' := by
  cases ht with
  | flagged | launched | unjoined | joined | exited | terminated => exact h.of_quiet rfl rfl rfl rfl
  | added task priority name => exact h.add task priority name
  | taken proc rest hthread hqueue => exact h.take hqueue rfl rfl
  | invoked proc =>
    refine h.of_quiet rfl rfl ?_ ?_
    · cases proc.task <;> rfl
    · cases proc.task <;> rfl

end Queued

theorem Reaches.queued (h : Reaches es s) : Queued es s := by
  apply h.induct
  · exact ⟨.nil, List.Pairwise.nil, by simp [added], by simp [takenPids]⟩
  · intro es s s' new hq ht
    exact hq.transition ht

theorem Reaches.readyQueue_sorted (h : Reaches es s) :
    s.readyQueue = sortDescending Process.priority (pending es) ∧
      (pending es).Pairwise (fun p q => p.pid < q.pid) ∧
      ∀ action s' new taken, s.step action = some (s', new) → .taken taken ∈ new →
        ∃ proc ∈ pending es, taken = { proc with state := .running } ∧ ∀ other ∈ pending es, other = proc ∨
          other.priority < proc.priority ∨ (other.priority = proc.priority ∧ proc.pid < other.pid) := by
  have hq := h.queued
  refine ⟨hq.sorted.eq_sortDescending, hq.pending_increasing, ?_⟩
  intro action s' new taken hs htaken
  have ht := step_transition hs
  cases ht with
  | taken proc rest hthread hqueue =>
    obtain ⟨rfl⟩ := Event.taken.inj (List.mem_singleton.mp htaken)
    have hmem : proc ∈ s.readyQueue := by simp [hqueue]
    refine ⟨proc, hq.mem_readyQueue.mp hmem, rfl, ?_⟩
    intro other hother
    have hin := hq.mem_readyQueue.mpr hother
    rw [hqueue] at hin
    rcases List.mem_cons.mp hin with heq | hrest
    · exact .inl heq
    · right
      have hsorted := hq.sorted
      rw [hqueue] at hsorted
      exact hsorted.head_first hq.pending_increasing hrest
  | invoked proc => cases proc.task <;> simp at htaken
  | _ => simp at htaken

def threeAdded : List (Action Unit) :=
  [.addProcess (some ()) 0 "a", .addProcess (some ()) 5 "b", .addProcess (some ()) 5 "c"]

theorem Reaches.readyQueue_sorted_ties : (CoreSystem.outcome threeAdded).1.readyQueue =
    sortDescending Process.priority (pending (CoreSystem.outcome threeAdded).2) :=
  (Reaches.outcome threeAdded).readyQueue_sorted.1

end TrinityOS.Core
